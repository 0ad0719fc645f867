import OpenAirplay2.Display.Roster
import OpenAirplay2.Lib.History

/-!
# The picker

Browsing keeps the roster and sends the list on offer through a channel after
every change; the display takes it from there, along with what the client has
to say, and moves a highlight over it.  The list that is shown is the list of
some moment of the history, and of the present once the channel is empty.
-/

namespace OpenAirplay2.Display

open OpenAirplay2.Display.Discover
open OpenAirplay2.Lib
open OpenAirplay2.Lib.Transition
open OpenAirplay2.Pairing (Bytes)

/-! ## The highlight -/

namespace Screen

variable
    {Db : Type}
    (screen : Screen Db)

/-- The row under the cursor of a picker that is up. -/
def highlighted : Option Receiver :=
  screen.picker.bind fun picker => screen.discovered[picker.cursor]?

/-- The cursor points inside a list that is not empty. -/
def Inside : Prop :=
  ∀ picker, screen.picker = some picker → screen.discovered ≠ [] →
    picker.cursor < screen.discovered.length

variable {screen}

theorem inside_of_none (down : screen.picker = none) : screen.Inside := by
  intro picker up
  rw [down] at up
  cases up

theorem inside_of_first
    (up : screen.picker = some { cursor := 0 }) : screen.Inside := by
  intro picker other nonempty
  rw [up, Option.some.injEq] at other
  rw [← other]
  exact List.length_pos_of_ne_nil nonempty

theorem inside_of_same
    {before : Screen Db} (inside : before.Inside)
    (picker : screen.picker = before.picker)
    (discovered : screen.discovered = before.discovered) :
    screen.Inside := by
  rw [Inside, picker, discovered]
  exact inside

theorem inside_receivers (receivers : List Receiver) :
    (screen.applyDiscovery (.receivers receivers)).Inside := by
  intro picker up nonempty
  rcases Option.map_eq_some_iff.mp up with ⟨before, _, rfl⟩
  have positive : 0 < receivers.length := List.length_pos_of_ne_nil nonempty
  exact Nat.lt_of_le_of_lt (Nat.min_le_right _ _)
    (Nat.sub_lt positive Nat.one_pos)

theorem inside_apply
    (inside : screen.Inside)
    (decode : String → Option Bytes) (update : Update Db) :
    (screen.apply decode update).Inside := by
  cases update with
  | connected endpoint => exact inside_of_none rfl
  | disconnected => exact inside_of_same inside rfl rfl
  | unauthorized => exact inside_of_same inside rfl rfl
  | message message => exact inside_of_same inside rfl rfl
  | noLocalReceiver =>
      rw [apply]
      split_ifs
      · exact inside
      · cases up : screen.picker with
        | none => exact inside_of_first rfl
        | some picker => exact inside_of_same inside up.symm rfl
  | discovery discovery =>
      cases discovery with
      | receivers receivers => exact inside_receivers receivers
      | unavailable message => exact inside_of_same inside rfl rfl

theorem inside_pickerMove
    (inside : screen.Inside) (delta : Int) :
    (screen.pickerMove delta).Inside := by
  rw [pickerMove]
  split
  · exact inside
  · next picker up =>
      split_ifs
      · exact inside
      · rintro moved ⟨⟩ nonempty
        have positive : 0 < screen.discovered.length :=
          List.length_pos_of_ne_nil nonempty
        show (max 0 (min ((screen.discovered.length : Int) - 1)
            (picker.cursor + delta))).toNat <
          screen.discovered.length
        omega

theorem inside_choose (inside : screen.Inside) : screen.choose.1.Inside := by
  rw [choose]
  split
  · exact inside
  · split
    · exact inside
    · exact inside_of_none rfl

/-- A list that still has the name under the cursor moves the cursor there. -/
theorem highlighted_receivers
    {row : Receiver} {receivers : List Receiver}
    (highlight : screen.highlighted = some row)
    (remains : ∃ receiver ∈ receivers, receiver.name = row.name) :
    ∃ next,
      (screen.applyDiscovery (.receivers receivers)).highlighted =
          some next ∧
        next.name = row.name := by
  rcases Option.bind_eq_some_iff.mp highlight with ⟨picker, up, found⟩
  rcases remains with ⟨receiver, member, named⟩
  have searched :
      (receivers.findIdx? fun other => other.name == row.name).isSome := by
    rw [List.findIdx?_isSome, List.any_eq_true]
    exact ⟨receiver, member, beq_iff_eq.mpr named⟩
  rcases Option.isSome_iff_exists.mp searched with ⟨position, isPosition⟩
  rcases List.findIdx?_eq_some_iff_getElem.mp isPosition with
    ⟨inside, same, _⟩
  refine ⟨receivers[position], ?_, beq_iff_eq.mp same⟩
  rw [highlighted, applyDiscovery, up]
  show receivers[min ((screen.discovered[picker.cursor]?.bind _).getD 0) _]? =
    _
  rw [found, Option.bind_some, isPosition, Option.getD_some,
    Nat.min_eq_left (Nat.le_sub_one_of_lt inside)]
  exact List.getElem?_eq_getElem inside

/-- Enter picks the row under the cursor. -/
theorem choose_eq :
    screen.choose.2 =
      screen.highlighted.map fun row => Endpoint.parse row.url := by
  rw [choose, highlighted]
  split
  · next down =>
      rw [down]
      rfl
  · next picker up =>
      rw [up, Option.bind_some]
      split
      · next outside =>
          rw [outside]
          rfl
      · next row found =>
          rw [found]
          rfl

theorem discovered_apply
    (decode : String → Option Bytes) (update : Update Db)
    (other : ∀ receivers, update ≠ .discovery (.receivers receivers)) :
    (screen.apply decode update).discovered = screen.discovered := by
  cases update with
  | connected endpoint => rfl
  | disconnected => rfl
  | unauthorized => rfl
  | message message => rfl
  | noLocalReceiver =>
      rw [apply]
      split_ifs
      · rfl
      · rfl
  | discovery discovery =>
      cases discovery with
      | receivers receivers => exact absurd rfl (other receivers)
      | unavailable message => rfl

theorem discovered_pickerMove (delta : Int) :
    (screen.pickerMove delta).discovered = screen.discovered := by
  rw [pickerMove]
  split
  · rfl
  · split_ifs
    · rfl
    · rfl

theorem discovered_choose :
    screen.choose.1.discovered = screen.discovered := by
  rw [choose]
  split
  · rfl
  · split
    · rfl
    · rfl

end Screen

/-! ## Browsing and the display -/

/-- What the client, and not the browser, tells the display. -/
def ClientUpdate (Db : Type) : Type :=
  { update : Update Db // ∀ discovery, update ≠ .discovery discovery }

/-- The roster, the updates in the channel and the screen. -/
structure Browsing (Db : Type) where
  roster : Roster
  updates : List (Update Db)
  screen : Screen Db

namespace Browsing

variable {Db : Type}

inductive Act (Db : Type) where
  | notified (notification : Notification)
  | unavailable (message : String)
  | client (update : ClientUpdate Db)
  | deliver
  | forceDiscovery
  | pickerMove (delta : Int)
  | choose

def initial (endpoint : String) (images : Graphics) : Browsing Db where
  roster := .empty
  updates := []
  screen := .new endpoint images

def step
    (decode : String → Option Bytes) (browsing : Browsing Db) :
    Act Db → Option (Browsing Db)
  | .notified notification =>
      let roster := browsing.roster.notify notification
      some
        { browsing with
          roster := roster
          updates :=
            browsing.updates ++
              [.discovery (.receivers roster.receivers)] }
  | .unavailable message =>
      some
        { browsing with
          updates :=
            browsing.updates ++ [.discovery (.unavailable message)] }
  | .client update =>
      some { browsing with updates := browsing.updates ++ [update.1] }
  | .deliver =>
      match browsing.updates with
      | [] => none
      | update :: rest =>
          some
            { browsing with
              updates := rest
              screen := browsing.screen.apply decode update }
  | .forceDiscovery =>
      some { browsing with screen := browsing.screen.forceDiscovery }
  | .pickerMove delta =>
      some { browsing with screen := browsing.screen.pickerMove delta }
  | .choose => some { browsing with screen := browsing.screen.choose.1 }

def system
    (decode : String → Option Bytes)
    (endpoint : String) (images : Graphics) :
    System (Browsing Db) (Act Db) where
  initial := initial endpoint images
  step := step decode

/-- The notification that an act is. -/
def reported (_ : Browsing Db) : Act Db → List Notification
  | .notified notification => [notification]
  | _ => []

/-- The lists in the channel. -/
def lists (updates : List (Update Db)) : List (List Receiver) :=
  updates.filterMap fun
    | .discovery (.receivers receivers) => some receivers
    | _ => none

/-- The client never sends a list. -/
theorem lists_client (update : ClientUpdate Db) : lists [update.1] = [] := by
  rcases update with ⟨update, other⟩
  cases update with
  | connected endpoint => rfl
  | disconnected => rfl
  | unauthorized => rfl
  | message message => rfl
  | noLocalReceiver => rfl
  | discovery discovery => exact absurd rfl (other discovery)

/-! ## The list of a moment -/

/-- The lists on offer at the later moments of a history. -/
def moments (seen : List Notification) :
    List Notification → List (List Receiver)
  | [] => []
  | notification :: later =>
      (Roster.after (seen ++ [notification])).receivers ::
        moments (seen ++ [notification]) later

theorem moments_append
    (seen later : List Notification) (last : Notification) :
    moments seen (later ++ [last]) =
      moments seen later ++
        [(Roster.after (seen ++ later ++ [last])).receivers] := by
  induction later generalizing seen with
  | nil =>
      rw [List.append_nil]
      rfl
  | cons notification later induction =>
      rw [List.cons_append, moments, moments, induction, List.cons_append,
        List.append_cons seen notification later]

/-- The screen and the channel tell the history of the roster. -/
structure InStep
    (browsing : Browsing Db) (history : List Notification) : Prop where
  roster : browsing.roster = Roster.after history
  channel :
    ∃ seen later,
      history = seen ++ later ∧
        browsing.screen.discovered = (Roster.after seen).receivers ∧
        lists browsing.updates = moments seen later
  inside : browsing.screen.Inside

theorem inStep_initial (endpoint : String) (images : Graphics) :
    InStep (initial endpoint images : Browsing Db) [] where
  roster := rfl
  channel := ⟨[], [], rfl, rfl, rfl⟩
  inside := Screen.inside_of_none rfl

/-- Nothing changes but the screen, and not its list. -/
theorem InStep.of_screen
    {browsing : Browsing Db} {history : List Notification}
    (inStep : InStep browsing history)
    {screen : Screen Db}
    (discovered : screen.discovered = browsing.screen.discovered)
    (inside : screen.Inside) :
    InStep { browsing with screen := screen } history where
  roster := inStep.roster
  channel := by
    rcases inStep.channel with ⟨seen, later, split, shown, sent⟩
    exact ⟨seen, later, split, discovered.trans shown, sent⟩
  inside := inside

/-- Something else is put into the channel. -/
theorem InStep.of_update
    {browsing : Browsing Db} {history : List Notification}
    (inStep : InStep browsing history)
    {update : Update Db}
    (other : lists [update] = []) :
    InStep { browsing with updates := browsing.updates ++ [update] }
      history where
  roster := inStep.roster
  channel := by
    rcases inStep.channel with ⟨seen, later, split, shown, sent⟩
    refine ⟨seen, later, split, shown, ?_⟩
    show lists (browsing.updates ++ [update]) = _
    rw [lists, List.filterMap_append]
    show lists browsing.updates ++ lists [update] = _
    rw [other, List.append_nil, sent]
  inside := inStep.inside

/-- A notification changes the roster and sends the new list. -/
theorem InStep.notified
    {browsing : Browsing Db} {history : List Notification}
    (inStep : InStep browsing history)
    (notification : Notification) :
    InStep
      { browsing with
        roster := browsing.roster.notify notification
        updates :=
          browsing.updates ++
            [.discovery
              (.receivers
                (browsing.roster.notify notification).receivers)] }
      (history ++ [notification]) := by
  have roster :
      browsing.roster.notify notification =
        Roster.after (history ++ [notification]) := by
    rw [Roster.after, List.foldl_append, inStep.roster]
    rfl
  rcases inStep.channel with ⟨seen, later, split, shown, sent⟩
  refine ⟨roster, ⟨seen, later ++ [notification], ?_, shown, ?_⟩,
    inStep.inside⟩
  · rw [split, List.append_assoc]
  · rw [moments_append, ← sent, ← split, ← roster]
    exact List.filterMap_append

/-- A list from the channel is the list of the next moment. -/
theorem InStep.delivered
    {browsing : Browsing Db} {history : List Notification}
    (inStep : InStep browsing history)
    {decode : String → Option Bytes}
    {update : Update Db} {rest : List (Update Db)}
    (first : browsing.updates = update :: rest) :
    InStep
      { browsing with
        updates := rest
        screen := browsing.screen.apply decode update }
      history := by
  rcases inStep.channel with ⟨seen, later, split, shown, sent⟩
  refine ⟨inStep.roster, ?_, Screen.inside_apply inStep.inside _ _⟩
  by_cases list : ∃ receivers, update = .discovery (.receivers receivers)
  · rcases list with ⟨receivers, rfl⟩
    rw [first] at sent
    cases later with
    | nil => cases sent
    | cons notification later =>
        rcases List.cons.inj sent with ⟨isList, sentRest⟩
        exact ⟨seen ++ [notification], later,
          split.trans (List.append_cons seen notification later), isList,
          sentRest⟩
  · have other : ∀ receivers, update ≠ .discovery (.receivers receivers) := by
      intro receivers same
      exact list ⟨receivers, same⟩
    refine ⟨seen, later, split, ?_, ?_⟩
    · exact (Screen.discovered_apply decode update other).trans shown
    · rw [first, lists] at sent
      rw [← sent, List.filterMap_cons_none]
      · rfl
      · split
        · next receivers => exact absurd rfl (other receivers)
        · rfl

theorem InStep.step
    {browsing next : Browsing Db} {history : List Notification}
    {decode : String → Option Bytes} {act : Act Db}
    (inStep : InStep browsing history)
    (stepped : browsing.step decode act = some next) :
    InStep next (history ++ reported browsing act) := by
  have silent {after : Browsing Db} (kept : InStep after history) :
      InStep after (history ++ []) := by
    rw [List.append_nil]
    exact kept
  cases act with
  | notified notification =>
      cases stepped
      exact inStep.notified notification
  | unavailable message =>
      cases stepped
      exact silent (inStep.of_update rfl)
  | client update =>
      cases stepped
      exact silent (inStep.of_update (lists_client update))
  | deliver =>
      rw [Browsing.step] at stepped
      split at stepped
      · cases stepped
      · next update rest first =>
          cases stepped
          exact silent (inStep.delivered first)
  | forceDiscovery =>
      cases stepped
      exact silent (inStep.of_screen rfl (Screen.inside_of_first rfl))
  | pickerMove delta =>
      cases stepped
      exact silent
        (inStep.of_screen (Screen.discovered_pickerMove delta)
          (Screen.inside_pickerMove inStep.inside delta))
  | choose =>
      cases stepped
      exact silent
        (inStep.of_screen Screen.discovered_choose
          (Screen.inside_choose inStep.inside))

/-- What holds of the picker when the list is that of a history. -/
structure Connects
    (decode : String → Option Bytes)
    (browsing : Browsing Db) (history : List Notification) : Prop where
  offers : Offers history browsing.screen.discovered
  inside : browsing.screen.Inside
  keeps :
    ∀ row receivers rest,
      browsing.screen.highlighted = some row →
        browsing.updates = .discovery (.receivers receivers) :: rest →
          (∃ receiver ∈ receivers, receiver.name = row.name) →
            ∃ next row',
              browsing.step decode .deliver = some next ∧
                next.screen.highlighted = some row' ∧
                row'.name = row.name
  chooses :
    browsing.screen.choose.2 =
      browsing.screen.highlighted.map fun row => .url row.url

/--
After every run the list is that of some moment of the history, of the last
one once no list is in the channel, and the picker connects to the row that
it highlights.
-/
theorem picker_connects_to_highlight
    (decode : String → Option Bytes)
    (endpoint : String) (images : Graphics)
    {schedule : List (Act Db)} {browsing : Browsing Db}
    (reached :
      (system decode endpoint images).exec (initial endpoint images)
          schedule =
        some browsing) :
    ∃ seen later,
      (system decode endpoint images).collect reported
            (initial endpoint images) schedule =
          seen ++ later ∧
        (lists browsing.updates = [] → later = []) ∧
        Connects decode browsing seen := by
  have inStep :
      InStep browsing
        ((system decode endpoint images).collect reported
          (initial endpoint images) schedule) := by
    refine System.invariant_of_collect InStep ?_
      (inStep_initial endpoint images) reached
    intro before history act next kept stepped
    exact kept.step stepped
  rcases inStep.channel with ⟨seen, later, split, shown, sent⟩
  have offers : Offers seen browsing.screen.discovered := by
    rw [shown]
    exact offers_receivers seen
  refine ⟨seen, later, split, ?_, offers, inStep.inside, ?_, ?_⟩
  · intro empty
    rw [empty] at sent
    cases later with
    | nil => rfl
    | cons notification later => cases sent
  · intro row receivers rest highlight first remains
    rcases Screen.highlighted_receivers highlight remains with
      ⟨row', highlight', named⟩
    refine
      ⟨{ browsing with
          updates := rest
          screen := browsing.screen.applyDiscovery (.receivers receivers) },
        row', ?_, highlight', named⟩
    rw [Browsing.step, first]
    rfl
  · rw [Screen.choose_eq]
    cases highlight : browsing.screen.highlighted with
    | none => rfl
    | some row =>
        rcases Option.bind_eq_some_iff.mp highlight with ⟨picker, _, found⟩
        rcases offers.live row (List.mem_of_getElem? found) with
          ⟨interface, protocol, resolved, _, rfl⟩
        rw [Option.map_some, Option.map_some]
        exact congrArg some (parse_endpointUrl _ _)

theorem noLocalReceiver_ne (discovery : Discovery) :
    (.noLocalReceiver : Update Nat) ≠ .discovery discovery := by
  intro same
  cases same

/-- A receiver that resolves both ways, and a picker that offers it. -/
def kitchen : List (Act Nat) :=
  [.client ⟨.noLocalReceiver, noLocalReceiver_ne⟩,
    .notified
      (.itemNew 2 1
        { name := "Kitchen"
          address := "2001:db8::5"
          port := 7392
          txt := [] }),
    .notified
      (.itemNew 2 0
        { name := "Kitchen"
          address := "10.0.0.2"
          port := 7392
          txt := [] }),
    .deliver, .deliver, .deliver]

theorem picker_connects_kitchen :
    ∃ browsing : Browsing Nat,
      (system (fun _ => none) "ws://localhost:7392"
          { protocol := .none, tmux := false }).exec
          (initial "ws://localhost:7392"
            { protocol := .none, tmux := false })
          kitchen =
        some browsing ∧
      ∃ seen later,
        (system (fun _ => none) "ws://localhost:7392"
            { protocol := .none, tmux := false }).collect reported
              (initial "ws://localhost:7392"
                { protocol := .none, tmux := false })
              kitchen =
            seen ++ later ∧
          (lists browsing.updates = [] → later = []) ∧
          Connects (fun _ => none) browsing seen :=
  ⟨_, rfl, picker_connects_to_highlight _ _ _ rfl⟩

end Browsing

end OpenAirplay2.Display
