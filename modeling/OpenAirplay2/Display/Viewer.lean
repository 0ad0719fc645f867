import OpenAirplay2.Display.Client
import OpenAirplay2.Display.Picker

/-!
# A display and its client

What the screen says of the connection follows the client through a channel,
and the client follows the picker through another.  The screen may lag
behind, but nothing that is still in the channel is a surprise: what it says
once it has caught up is what the client does.
-/

namespace OpenAirplay2.Display

open OpenAirplay2.Lib.Transition
open OpenAirplay2.Pairing (Bytes)

variable {Db : Type}

/-! ## What a step can do -/

/-- The endpoints that are left of a round. -/
def Phase.endpoints : Phase → List Endpoint
  | .round rest => rest
  | .attempting endpoint rest => endpoint :: rest
  | .streaming endpoint rest => endpoint :: rest
  | .asleep => []
  | .stopped => []

/-- The client is on its way; nothing is known of the connection. -/
def Phase.OnTheWay : Phase → Prop
  | .round _ => True
  | .attempting _ _ => True
  | .stopped => True
  | _ => False

/-- The client is in the same loop as before. -/
structure Client.Continues (client next : Client Db) : Prop where
  decided : next.decided = client.decided
  endpoints : next.endpoints = client.endpoints
  update :
    next.update = client.update ∨ next.update = .disconnected ∨
      next.update = .unauthorized
  within :
    ∀ endpoint ∈ next.phase.endpoints,
      endpoint ∈ client.phase.endpoints ∨ endpoint ∈ client.endpoints

/-- What the client says, and where it stands then. -/
inductive Client.Reports (floats : Floats Db) (client : Client Db) :
    Viewer.Act → Update Db → Phase → Prop
  | connected
      {endpoint : Endpoint} {rest : List Endpoint}
      (attempting : client.phase = .attempting endpoint rest) :
      Reports floats client .connect (.connected endpoint.label)
        (.streaming endpoint rest)
  | heard
      {endpoint : Endpoint} {rest : List Endpoint} {text : String}
      {message : Message Db}
      (streaming : client.phase = .streaming endpoint rest)
      (known : parse floats text = some message) :
      Reports floats client (.frame (.text text)) (.message message)
        (.streaming endpoint rest)
  | verdict (decided : client.decided = true) :
      Reports floats client .advance client.update .asleep
  | nobody (undecided : client.decided = false) :
      Reports floats client .advance .noLocalReceiver .asleep
  | dropped
      {act : Viewer.Act} {rest : List Endpoint}
      (textless : ∀ text, act ≠ .frame (.text text)) :
      Reports floats client act .disconnected (.round rest)

namespace Viewer

section Steps

variable
    (floats : Floats Db)
    (decode : String → Option Bytes)

/-- What an act can make of the client, the channels and the display. -/
inductive Moves (viewer : Viewer Db) : Act → Viewer Db → Prop
  | goes
      {act : Act} {client : Client Db}
      (textless : ∀ text, act ≠ .frame (.text text))
      (continues : viewer.client.Continues client)
      (phase : client.phase.OnTheWay) :
      Moves viewer act (viewer.proceed client)
  | stops
      {act : Act} {client : Client Db}
      (continues : viewer.client.Continues client)
      (phase : client.phase = .stopped) :
      Moves viewer act (viewer.proceed client)
  | tells
      {act : Act} {update : Update Db} {client : Client Db}
      (continues : viewer.client.Continues client)
      (reports :
        viewer.client.Reports floats act update client.phase)
      (same :
        client.phase = .asleep → client.update = viewer.client.update) :
      Moves viewer act
        { viewer with
          updates := viewer.updates ++ [update]
          client := client }
  | selects
      {act : Act} {choice : Endpoint} {later : List Endpoint}
      (textless : ∀ text, act ≠ .frame (.text text))
      (undecided : viewer.client.decided = false)
      (waiting : viewer.selections = choice :: later) :
      Moves viewer act (viewer.selected choice later)
  | skips
      {text : String} (unknown : parse floats text = none) :
      Moves viewer (.frame (.text text)) viewer
  | stays
      {act : Act} (textless : ∀ text, act ≠ .frame (.text text)) :
      Moves viewer act viewer
  | discovers (discovery : Discovery) :
      Moves viewer (.discover discovery)
        { viewer with
          updates := viewer.updates ++ [.discovery discovery] }
  | delivers
      {update : Update Db} {rest : List (Update Db)}
      (first : viewer.updates = update :: rest) :
      Moves viewer .deliver
        { viewer with
          updates := rest
          screen := viewer.screen.apply decode update }
  | moves (delta : Int) :
      Moves viewer (.pickerMove delta)
        { viewer with screen := viewer.screen.pickerMove delta }
  | chooses : Moves viewer .choose viewer.choose
  | quits :
      Moves viewer .quit { viewer with choosing := false }
  | leaves :
      Moves viewer .leave { viewer with listening := false }

variable
    {floats : Floats Db}
    {decode : String → Option Bytes}
    {viewer next : Viewer Db}
    {act : Act}

/-- A report, or the end of a client that nobody listens to. -/
theorem moves_send
    {update : Update Db} {client : Client Db}
    (continues : viewer.client.Continues client)
    (reports : viewer.client.Reports floats act update client.phase)
    (same :
      client.phase = .asleep → client.update = viewer.client.update) :
    Moves floats decode viewer act (viewer.send update client) := by
  rw [send]
  split
  · exact Moves.tells continues reports same
  · refine Moves.stops ?_ rfl
    exact
      ⟨continues.decided, continues.endpoints, continues.update,
        fun _ there => absurd there List.not_mem_nil⟩

theorem continues_enter
    {client : Client Db} {phase : Phase}
    (within :
      ∀ endpoint ∈ phase.endpoints,
        endpoint ∈ client.phase.endpoints ∨ endpoint ∈ client.endpoints) :
    client.Continues (client.enter phase) :=
  ⟨rfl, rfl, Or.inl rfl, within⟩

/-- The attempt or the connection is over; the round goes on. -/
theorem moves_failed
    {endpoint : Endpoint} {rest : List Endpoint} {unauthorized : Bool}
    (left : viewer.client.phase.endpoints = endpoint :: rest) :
    Moves floats decode viewer (.fail unauthorized)
      (viewer.proceed (viewer.client.failed unauthorized rest)) := by
  refine Moves.goes (fun _ => Act.noConfusion) ?_ trivial
  refine ⟨rfl, rfl, ?_, ?_⟩
  · cases unauthorized
    · exact Or.inl rfl
    · exact Or.inr (Or.inr rfl)
  · intro other there
    rw [left]
    exact Or.inl (List.mem_cons_of_mem _ there)

theorem moves_drop
    {endpoint : Endpoint} {rest : List Endpoint}
    (textless : ∀ text, act ≠ .frame (.text text))
    (streaming : viewer.client.phase = .streaming endpoint rest) :
    Moves floats decode viewer act (viewer.drop rest) := by
  rw [drop]
  split
  · refine Moves.goes textless ⟨rfl, rfl, Or.inr (Or.inl rfl), ?_⟩ trivial
    exact fun _ there => absurd there List.not_mem_nil
  · refine moves_send ?_ (Client.Reports.dropped textless) ?_
    · refine ⟨rfl, rfl, Or.inr (Or.inl rfl), ?_⟩
      intro other there
      rw [streaming]
      exact Or.inl (List.mem_cons_of_mem _ there)
    · rintro ⟨⟩

theorem moves_advance
    {rest : List Endpoint} (round : viewer.client.phase = .round rest) :
    Moves floats decode viewer .advance (viewer.advance rest) := by
  have within {phase : Phase} (same : phase.endpoints = rest) :
      viewer.client.Continues (viewer.client.enter phase) := by
    apply continues_enter
    intro endpoint there
    rw [round]
    exact Or.inl (same ▸ there)
  cases rest with
  | nil =>
      refine moves_send (within rfl) ?_ fun _ => rfl
      show Client.Reports _ _ _ (if _ then _ else _) _
      split
      · next decided => exact Client.Reports.verdict decided
      · next undecided =>
          exact Client.Reports.nobody (Bool.not_eq_true _ ▸ undecided)
  | cons endpoint rest =>
      rw [advance.eq_def]
      show Moves _ _ _ _ (if _ then _ else _)
      split
      · exact Moves.goes (fun _ => Act.noConfusion) (within rfl) trivial
      · next undecided =>
          rw [probe]
          split
          · next choice later waiting =>
              exact
                Moves.selects (fun _ => Act.noConfusion)
                  (Bool.not_eq_true _ ▸ undecided) waiting
          · split
            · exact
                Moves.goes (fun _ => Act.noConfusion) (within rfl)
                  trivial
            · refine Moves.stops (continues_enter ?_) rfl
              exact fun _ there => absurd there List.not_mem_nil

/-- Every step is one of the moves. -/
theorem moves_of_step
    (stepped : step floats decode viewer act = some next) :
    Moves floats decode viewer act next := by
  cases act with
  | advance =>
      simp only [step] at stepped
      split at stepped
      · next round =>
          cases stepped
          exact moves_advance round
      · cases stepped
  | fail unauthorized =>
      simp only [step] at stepped
      split at stepped
      · next attempting =>
          cases stepped
          exact moves_failed (by rw [attempting]; rfl)
      · next streaming =>
          cases stepped
          exact moves_failed (by rw [streaming]; rfl)
      · cases stepped
  | connect =>
      simp only [step] at stepped
      split at stepped
      · next attempting =>
          cases stepped
          refine moves_send (continues_enter ?_) ?_ ?_
          · intro endpoint there
            rw [attempting]
            exact Or.inl there
          · exact Client.Reports.connected attempting
          · rintro ⟨⟩
      · cases stepped
  | frame message =>
      simp only [step] at stepped
      split at stepped
      · next streaming =>
          cases stepped
          rw [hear]
          split
          · next known =>
              refine moves_send ⟨rfl, rfl, Or.inl rfl, ?_⟩ ?_ fun _ => rfl
              · exact fun _ there => Or.inl there
              · rw [streaming]
                exact Client.Reports.heard streaming known
          · next unknown => exact Moves.skips unknown
      · next streaming =>
          cases stepped
          exact moves_drop (fun _ => by simp) streaming
      · cases stepped
        exact Moves.stays fun _ => by simp
      · cases stepped
  | ended =>
      simp only [step] at stepped
      split at stepped
      · next streaming =>
          cases stepped
          exact moves_drop (fun _ => Act.noConfusion) streaming
      · cases stepped
  | wake =>
      simp only [step] at stepped
      split at stepped
      · cases stepped
        refine
          Moves.goes (fun _ => Act.noConfusion)
            ⟨rfl, rfl, Or.inr (Or.inl rfl), ?_⟩ trivial
        exact fun _ there => Or.inr there
      · cases stepped
  | select =>
      simp only [step] at stepped
      split at stepped
      · next undecided =>
          split at stepped
          · next waiting =>
              cases stepped
              exact
                Moves.selects (fun _ => Act.noConfusion) undecided waiting
          · split at stepped
            · cases stepped
            · cases stepped
              refine Moves.stops (continues_enter ?_) rfl
              exact fun _ there => absurd there List.not_mem_nil
      · cases stepped
  | discover discovery =>
      simp only [step] at stepped
      split at stepped <;> cases stepped
      · exact Moves.discovers discovery
      · exact Moves.stays fun _ => Act.noConfusion
  | deliver =>
      simp only [step] at stepped
      split at stepped
      · next first =>
          cases stepped
          exact Moves.delivers first
      · cases stepped
  | pickerMove delta =>
      simp only [step] at stepped
      split at stepped <;> cases stepped
      exact Moves.moves delta
  | choose =>
      simp only [step] at stepped
      split at stepped <;> cases stepped
      exact Moves.chooses
  | quit =>
      simp only [step] at stepped
      split at stepped <;> cases stepped
      exact Moves.quits
  | leave =>
      simp only [step] at stepped
      split at stepped <;> cases stepped
      exact Moves.leaves

end Steps

end Viewer

/-! ## What the screen is about to say -/

/-- Something that updates make a screen say, and that others leave alone. -/
structure Announcement (Db : Type) where
  holds : Screen Db → Prop
  settles : Update Db → Prop
  quiet : Update Db → Prop

namespace Announcement

variable (announcement : Announcement Db)

/-- A screen says it once it has taken everything that is pending. -/
def Made (updates : List (Update Db)) (screen : Screen Db) : Prop :=
  (announcement.holds screen ∧
      ∀ update ∈ updates, announcement.quiet update) ∨
    ∃ before update after,
      updates = before ++ update :: after ∧
        announcement.settles update ∧
          ∀ later ∈ after, announcement.quiet later

variable
    {announcement : Announcement Db}
    {updates : List (Update Db)}
    {screen : Screen Db}
    {update : Update Db}

theorem made_of_settles (settles : announcement.settles update) :
    announcement.Made (updates ++ [update]) screen :=
  Or.inr
    ⟨updates, update, [], rfl, settles, fun _ there =>
      absurd there List.not_mem_nil⟩

theorem Made.append
    (made : announcement.Made updates screen)
    (quiet : announcement.quiet update) :
    announcement.Made (updates ++ [update]) screen := by
  have still
      {others : List (Update Db)}
      (each : ∀ other ∈ others, announcement.quiet other) :
      ∀ other ∈ others ++ [update], announcement.quiet other := by
    intro other there
    rcases List.mem_append.mp there with before | isLast
    · exact each other before
    · rw [List.mem_singleton.mp isLast]
      exact quiet
  rcases made with
    ⟨holds, each⟩ | ⟨before, settled, after, rfl, settles, each⟩
  · exact Or.inl ⟨holds, still each⟩
  · refine
      Or.inr ⟨before, settled, after ++ [update], ?_, settles, still each⟩
    rw [List.append_assoc, List.cons_append]

/-- The screen takes the oldest update. -/
theorem Made.deliver
    {decode : String → Option Bytes}
    (settled :
      announcement.settles update →
        announcement.holds (screen.apply decode update))
    (kept :
      announcement.holds screen → announcement.quiet update →
        announcement.holds (screen.apply decode update))
    (made : announcement.Made (update :: updates) screen) :
    announcement.Made updates (screen.apply decode update) := by
  rcases made with
    ⟨holds, each⟩ | ⟨before, found, after, split, settles, each⟩
  · left
    exact
      ⟨kept holds (each update List.mem_cons_self), fun other there =>
        each other (List.mem_cons_of_mem _ there)⟩
  · cases before with
    | nil =>
        cases split
        exact Or.inl ⟨settled settles, each⟩
    | cons first before =>
        cases split
        exact Or.inr ⟨before, found, after, rfl, settles, each⟩

/-- A key was pressed. -/
theorem Made.press
    {other : Screen Db}
    (kept : announcement.holds screen → announcement.holds other)
    (made : announcement.Made updates screen) :
    announcement.Made updates other :=
  made.imp_left fun now => ⟨kept now.1, now.2⟩

theorem Made.holds (made : announcement.Made [] screen) :
    announcement.holds screen := by
  rcases made with ⟨holds, -⟩ | ⟨before, update, after, split, -⟩
  · exact holds
  · exact absurd split.symm (by simp)

end Announcement

/-- What the browser reports, which says nothing of the connection. -/
def Update.IsDiscovery (update : Update Db) : Prop :=
  ∃ discovery, update = .discovery discovery

/-- The connection is up, and the picker is not. -/
def connectedTo (label : String) : Announcement Db where
  holds screen :=
    screen.connection = .connected ∧ screen.endpoint = label ∧
      screen.picker = none
  settles update := update = .connected label
  quiet update :=
    (∃ message, update = .message message) ∨ update.IsDiscovery

/-- The connection that a report leaves. -/
def connectionAfter : Update Db → Connection
  | .unauthorized => .unauthorized
  | _ => .lost

/-- The connection is down, for a reason. -/
def downAfter (verdict : Update Db) : Announcement Db where
  holds screen := screen.connection = connectionAfter verdict
  settles update := update = verdict
  quiet := Update.IsDiscovery

/-- The picker is up, or was used. -/
def offered : Announcement Db where
  holds screen := screen.picker ≠ none ∨ screen.chosen = true
  settles update := update = .noLocalReceiver
  quiet := Update.IsDiscovery

section Announcements

variable
    {decode : String → Option Bytes}
    {screen : Screen Db}
    {update : Update Db}
    {updates : List (Update Db)}

/-- The list of receivers is shown where the picker is. -/
theorem picker_discovery (discovery : Discovery) :
    (screen.apply decode (.discovery discovery)).picker = none ↔
      screen.picker = none := by
  cases discovery with
  | receivers receivers => exact Option.map_eq_none_iff
  | unavailable message => exact Iff.rfl

theorem connection_discovery (discovery : Discovery) :
    (screen.apply decode (.discovery discovery)).connection =
        screen.connection ∧
      (screen.apply decode (.discovery discovery)).endpoint =
          screen.endpoint ∧
        (screen.apply decode (.discovery discovery)).chosen =
          screen.chosen := by
  cases discovery <;> exact ⟨rfl, rfl, rfl⟩

theorem connectedTo_deliver
    {label : String}
    (made : (connectedTo label).Made (update :: updates) screen) :
    (connectedTo label).Made updates (screen.apply decode update) := by
  apply made.deliver
  · rintro rfl
    exact ⟨rfl, rfl, rfl⟩
  · rintro ⟨connected, endpoint, down⟩
      (⟨message, rfl⟩ | ⟨discovery, rfl⟩)
    · exact ⟨connected, endpoint, down⟩
    · rcases @connection_discovery _ decode screen discovery with
        ⟨sameConnection, sameEndpoint, -⟩
      exact
        ⟨sameConnection.trans connected, sameEndpoint.trans endpoint,
          (picker_discovery discovery).mpr down⟩

theorem downAfter_deliver
    {verdict : Update Db}
    (either : verdict = .disconnected ∨ verdict = .unauthorized)
    (made : (downAfter verdict).Made (update :: updates) screen) :
    (downAfter verdict).Made updates (screen.apply decode update) := by
  apply made.deliver
  · rintro rfl
    rcases either with rfl | rfl <;> rfl
  · rintro down ⟨discovery, rfl⟩
    exact (connection_discovery discovery).1.trans down

theorem offered_deliver
    (made : offered.Made (update :: updates) screen) :
    offered.Made updates (screen.apply decode update) := by
  apply made.deliver
  · rintro rfl
    show Screen.picker (if screen.chosen then screen else _) ≠ none ∨ _
    by_cases chosen : screen.chosen = true
    · right
      rw [Screen.apply, if_pos chosen]
      exact chosen
    · left
      rw [if_neg chosen]
      exact Option.some_ne_none _
  · rintro (up | chosen) ⟨discovery, rfl⟩
    · exact Or.inl (mt (picker_discovery discovery).mp up)
    · exact Or.inr ((connection_discovery discovery).2.2.trans chosen)

end Announcements

/-! ## Keys -/

section Keys

variable (screen : Screen Db)

theorem picker_pickerMove (delta : Int) :
    (screen.pickerMove delta).picker = none ↔ screen.picker = none := by
  rw [Screen.pickerMove]
  split
  · exact Iff.rfl
  · next picker up =>
      split_ifs
      · exact Iff.rfl
      · rw [up]
        simp

theorem connection_pickerMove (delta : Int) :
    (screen.pickerMove delta).connection = screen.connection ∧
      (screen.pickerMove delta).endpoint = screen.endpoint ∧
        (screen.pickerMove delta).chosen = screen.chosen ∧
          (screen.pickerMove delta).nowPlaying = screen.nowPlaying := by
  rw [Screen.pickerMove]
  split
  · exact ⟨rfl, rfl, rfl, rfl⟩
  · split_ifs <;> exact ⟨rfl, rfl, rfl, rfl⟩

/-- Enter does nothing, or it chooses from a picker that is up. -/
theorem choose_cases :
    screen.choose = (screen, none) ∨
      ∃ endpoint,
        screen.picker ≠ none ∧ screen.choose.2 = some endpoint ∧
          screen.choose.1.chosen = true ∧ screen.choose.1.picker = none := by
  rw [Screen.choose]
  split
  · exact Or.inl rfl
  · next picker up =>
      split
      · exact Or.inl rfl
      · next receiver _ =>
          right
          refine ⟨Endpoint.parse receiver.url, ?_, rfl, rfl, rfl⟩
          rw [up]
          exact Option.some_ne_none _

theorem nowPlaying_choose :
    screen.choose.1.nowPlaying = screen.nowPlaying := by
  rw [Screen.choose]
  split
  · rfl
  · split <;> rfl

end Keys

namespace Viewer

/-! ## The invariant -/

/-- What the screen is about to say while the client sleeps. -/
def resting (client : Client Db) : Announcement Db :=
  if client.decided then downAfter client.update else offered

/-- The channels tell the screen what the client does, and the other way. -/
structure Sound (viewer : Viewer Db) : Prop where
  verdict :
    viewer.client.update = .disconnected ∨
      viewer.client.update = .unauthorized
  /-- A picker that was used stays down. -/
  closed : viewer.screen.chosen = true → viewer.screen.picker = none
  waiting : viewer.selections ≠ [] → viewer.screen.chosen = true
  /-- A choice waits until the client takes it. -/
  undecided :
    viewer.client.decided = false → viewer.screen.chosen = true →
      viewer.selections ≠ []
  decided :
    viewer.client.decided = true →
      viewer.screen.picker = none ∧
        (viewer.screen.chosen = true ∨
          ∀ update ∈ viewer.updates, update ≠ .noLocalReceiver)
  streaming :
    ∀ endpoint rest, viewer.client.phase = .streaming endpoint rest →
      (connectedTo endpoint.label).Made viewer.updates viewer.screen
  resting :
    viewer.client.phase = .asleep →
      (resting viewer.client).Made viewer.updates viewer.screen

/-- Either an endpoint is given or the picker is asked for. -/
theorem sound_start
    {endpoint : Option String} {discover : Bool}
    (exclusive : endpoint = none ∨ discover = false)
    (candidates : List Endpoint) (images : Graphics) :
    (start endpoint discover candidates images : Viewer Db).Sound := by
  have undecided (screen : Screen Db) (endpoints : List Endpoint)
      (fresh : screen.chosen = false) :
      Sound
        { client := Client.runLocalOrSelected endpoints
          updates := []
          selections := []
          screen := screen
          choosing := true
          listening := true } := by
    refine
      ⟨Or.inl rfl, fun chosen => ?_, fun waits => absurd rfl waits,
        fun _ chosen => ?_, fun decided => Bool.noConfusion decided,
        fun _ _ streaming => Phase.noConfusion streaming,
        fun asleep => Phase.noConfusion asleep⟩
    · cases fresh.symm.trans chosen
    · cases fresh.symm.trans chosen
  cases endpoint with
  | none =>
      cases discover with
      | true => exact undecided _ _ rfl
      | false => exact undecided _ _ rfl
  | some value =>
      rcases exclusive with given | rfl
      · cases given
      · exact
          ⟨Or.inl rfl, fun _ => rfl, fun waits => absurd rfl waits,
            fun undecided => Bool.noConfusion undecided,
            fun _ =>
              ⟨rfl, Or.inr fun _ there => absurd there List.not_mem_nil⟩,
            fun _ _ streaming => Phase.noConfusion streaming,
            fun asleep => Phase.noConfusion asleep⟩

section Invariant

variable
    {floats : Floats Db}
    {decode : String → Option Bytes}
    {viewer next : Viewer Db}
    {act : Act}

/-- A client in the same loop that is on its way. -/
theorem Sound.proceed
    (sound : viewer.Sound) {client : Client Db}
    (continues : viewer.client.Continues client)
    (phase : client.phase.OnTheWay) :
    (viewer.proceed client).Sound := by
  constructor
  · show client.update = _ ∨ client.update = _
    rcases continues.update with same | disconnected | unauthorized
    · rw [same]
      exact sound.verdict
    · exact Or.inl disconnected
    · exact Or.inr unauthorized
  · exact sound.closed
  · exact sound.waiting
  · exact fun undecided =>
      sound.undecided (continues.decided.symm.trans undecided)
  · exact fun decided =>
      sound.decided (continues.decided.symm.trans decided)
  · intro endpoint rest streaming
    have isStreaming : client.phase = .streaming endpoint rest := streaming
    rw [isStreaming] at phase
    exact False.elim phase
  · intro asleep
    have isAsleep : client.phase = .asleep := asleep
    rw [isAsleep] at phase
    exact False.elim phase

/-- A client with an endpoint never says that there is none. -/
theorem reports_ne
    {client : Client Db} {update : Update Db} {phase : Phase}
    (reports : client.Reports floats act update phase)
    (verdict :
      client.update = .disconnected ∨ client.update = .unauthorized)
    (decided : client.decided = true) :
    update ≠ .noLocalReceiver := by
  cases reports with
  | connected => rintro ⟨⟩
  | heard => rintro ⟨⟩
  | verdict =>
      rcases verdict with same | same <;> rw [same] <;> rintro ⟨⟩
  | nobody undecided => cases undecided.symm.trans decided
  | dropped => rintro ⟨⟩

/-- What is reported is what the screen is about to say. -/
theorem Sound.tells
    (sound : viewer.Sound) {update : Update Db} {client : Client Db}
    (continues : viewer.client.Continues client)
    (reports : viewer.client.Reports floats act update client.phase)
    (same :
      client.phase = .asleep → client.update = viewer.client.update) :
    Sound
      { viewer with
        updates := viewer.updates ++ [update]
        client := client } := by
  constructor
  · show client.update = _ ∨ client.update = _
    rcases continues.update with same | disconnected | unauthorized
    · rw [same]
      exact sound.verdict
    · exact Or.inl disconnected
    · exact Or.inr unauthorized
  · exact sound.closed
  · exact sound.waiting
  · exact fun undecided =>
      sound.undecided (continues.decided.symm.trans undecided)
  · intro decided
    have before := continues.decided.symm.trans decided
    refine ⟨(sound.decided before).1, ?_⟩
    apply (sound.decided before).2.imp_right
    intro each other there
    rcases List.mem_append.mp there with earlier | isLast
    · exact each other earlier
    · rw [List.mem_singleton.mp isLast]
      exact reports_ne reports sound.verdict before
  · intro endpoint rest streaming
    have isStreaming : client.phase = .streaming endpoint rest := streaming
    rw [isStreaming] at reports
    cases reports with
    | connected => exact Announcement.made_of_settles rfl
    | heard already known =>
        exact
          (sound.streaming endpoint rest already).append
            (Or.inl ⟨_, rfl⟩)
  · intro asleep
    have isAsleep : client.phase = .asleep := asleep
    rw [isAsleep] at reports
    show (Viewer.resting client).Made _ _
    rw [Viewer.resting, continues.decided, same isAsleep]
    cases reports with
    | verdict decided =>
        rw [if_pos decided]
        exact Announcement.made_of_settles rfl
    | nobody undecided =>
        rw [undecided]
        exact Announcement.made_of_settles rfl

theorem Sound.selected
    (sound : viewer.Sound) {choice : Endpoint} {later : List Endpoint}
    (waiting : viewer.selections = choice :: later) :
    (viewer.selected choice later).Sound := by
  have chosen : viewer.screen.chosen = true := by
    apply sound.waiting
    rw [waiting]
    exact List.cons_ne_nil _ _
  exact
    ⟨Or.inl rfl, sound.closed, fun _ => chosen,
      fun undecided => Bool.noConfusion undecided,
      fun _ => ⟨sound.closed chosen, Or.inl chosen⟩,
      fun _ _ streaming => Phase.noConfusion streaming,
      fun asleep => Phase.noConfusion asleep⟩

theorem Sound.discover
    (sound : viewer.Sound) (discovery : Discovery) :
    Sound
      { viewer with
        updates := viewer.updates ++ [.discovery discovery] } := by
  constructor
  · exact sound.verdict
  · exact sound.closed
  · exact sound.waiting
  · exact sound.undecided
  · intro decided
    refine ⟨(sound.decided decided).1, ?_⟩
    apply (sound.decided decided).2.imp_right
    intro each other there
    rcases List.mem_append.mp there with earlier | isLast
    · exact each other earlier
    · rw [List.mem_singleton.mp isLast]
      rintro ⟨⟩
  · exact fun endpoint rest streaming =>
      (sound.streaming endpoint rest streaming).append
        (Or.inr ⟨discovery, rfl⟩)
  · intro asleep
    have made := sound.resting asleep
    show (Viewer.resting viewer.client).Made _ _
    rw [Viewer.resting] at made ⊢
    split at made
    · next decided =>
        rw [if_pos decided]
        exact made.append ⟨discovery, rfl⟩
    · next undecided =>
        rw [if_neg undecided]
        exact made.append ⟨discovery, rfl⟩

/-- A picker that was used, or that nobody asked for, stays down. -/
theorem picker_deliver
    {screen : Screen Db} {update : Update Db}
    (down : screen.picker = none)
    (kept : screen.chosen = true ∨ update ≠ .noLocalReceiver) :
    (screen.apply decode update).picker = none := by
  cases update with
  | noLocalReceiver =>
      rcases kept with chosen | other
      · rw [Screen.apply, if_pos chosen]
        exact down
      · exact absurd rfl other
  | discovery discovery => exact (picker_discovery discovery).mpr down
  | connected => rfl
  | _ => exact down

theorem chosen_deliver (screen : Screen Db) (update : Update Db) :
    (screen.apply decode update).chosen = screen.chosen := by
  cases update with
  | noLocalReceiver =>
      rw [Screen.apply]
      split <;> rfl
  | discovery discovery => exact (connection_discovery discovery).2.2
  | _ => rfl

theorem Sound.deliver
    (sound : viewer.Sound) {update : Update Db} {rest : List (Update Db)}
    (first : viewer.updates = update :: rest) :
    Sound
      { viewer with
        updates := rest
        screen := viewer.screen.apply decode update } := by
  constructor
  · exact sound.verdict
  · intro chosen
    have before : viewer.screen.chosen = true :=
      (chosen_deliver _ _).symm.trans chosen
    exact picker_deliver (sound.closed before) (Or.inl before)
  · exact fun waits => (chosen_deliver _ _).trans (sound.waiting waits)
  · exact fun undecided chosen =>
      sound.undecided undecided ((chosen_deliver _ _).symm.trans chosen)
  · intro decided
    rcases sound.decided decided with ⟨down, kept⟩
    rw [first] at kept
    constructor
    · exact
        picker_deliver down
          (kept.imp_right fun each => each update List.mem_cons_self)
    · exact
        kept.imp (fun chosen => (chosen_deliver _ _).trans chosen)
          fun each other there =>
            each other (List.mem_cons_of_mem _ there)
  · intro endpoint rest streaming
    have made := sound.streaming endpoint rest streaming
    rw [first] at made
    exact connectedTo_deliver made
  · intro asleep
    have made := sound.resting asleep
    rw [first] at made
    show (Viewer.resting viewer.client).Made _ _
    rw [Viewer.resting] at made ⊢
    split at made
    · next decided =>
        rw [if_pos decided]
        exact downAfter_deliver sound.verdict made
    · next undecided =>
        rw [if_neg undecided]
        exact offered_deliver made

theorem Sound.pickerMove (sound : viewer.Sound) (delta : Int) :
    Sound { viewer with screen := viewer.screen.pickerMove delta } := by
  rcases connection_pickerMove viewer.screen delta with
    ⟨connection, endpoint, chosen, -⟩
  have picker := picker_pickerMove viewer.screen delta
  constructor
  · exact sound.verdict
  · exact fun now => picker.mpr (sound.closed (chosen.symm.trans now))
  · exact fun waits => chosen.trans (sound.waiting waits)
  · exact fun undecided now =>
      sound.undecided undecided (chosen.symm.trans now)
  · intro decided
    rcases sound.decided decided with ⟨down, kept⟩
    exact ⟨picker.mpr down, kept.imp_left chosen.trans⟩
  · intro whom rest streaming
    apply (sound.streaming whom rest streaming).press
    rintro ⟨connected, label, down⟩
    exact
      ⟨connection.trans connected, endpoint.trans label, picker.mpr down⟩
  · intro asleep
    have made := sound.resting asleep
    show (Viewer.resting viewer.client).Made _ _
    rw [Viewer.resting] at made ⊢
    split at made
    · next decided =>
        rw [if_pos decided]
        exact made.press connection.trans
    · next undecided =>
        rw [if_neg undecided]
        apply made.press
        exact fun before => before.imp (mt picker.mp) chosen.trans

theorem Sound.choose (sound : viewer.Sound) : viewer.choose.Sound := by
  rcases choose_cases viewer.screen with
    nothing | ⟨endpoint, up, choice, chosen, down⟩
  · have same : viewer.choose = viewer := by
      rw [Viewer.choose, nothing]
      show { viewer with selections := viewer.selections ++ [] } = _
      rw [List.append_nil]
    rw [same]
    exact sound
  · have undecided : viewer.client.decided = false := by
      rw [← Bool.not_eq_true]
      exact fun decided => up (sound.decided decided).1
    have waits : viewer.choose.selections ≠ [] := by
      show viewer.selections ++ viewer.screen.choose.2.toList ≠ []
      rw [choice]
      exact List.append_ne_nil_of_right_ne_nil _ (List.cons_ne_nil _ _)
    constructor
    · exact sound.verdict
    · exact fun _ => down
    · exact fun _ => chosen
    · exact fun _ _ => waits
    · intro decided
      cases undecided.symm.trans decided
    · intro whom rest streaming
      apply (sound.streaming whom rest streaming).press
      rintro ⟨-, -, downBefore⟩
      exact absurd downBefore up
    · intro asleep
      have made := sound.resting asleep
      show (Viewer.resting viewer.client).Made _ _
      rw [Viewer.resting, undecided] at made ⊢
      exact made.press fun _ => Or.inr chosen

theorem sound_step
    (sound : viewer.Sound)
    (stepped : step floats decode viewer act = some next) :
    next.Sound := by
  cases moves_of_step stepped with
  | goes _ continues phase => exact sound.proceed continues phase
  | stops continues phase =>
      apply sound.proceed continues
      rw [phase]
      trivial
  | tells continues reports same => exact sound.tells continues reports same
  | selects _ _ waiting => exact sound.selected waiting
  | skips => exact sound
  | stays => exact sound
  | discovers discovery => exact sound.discover discovery
  | delivers first => exact sound.deliver first
  | moves delta => exact sound.pickerMove delta
  | chooses => exact sound.choose
  | quits =>
      exact
        ⟨sound.verdict, sound.closed, sound.waiting, sound.undecided,
          sound.decided, sound.streaming, sound.resting⟩
  | leaves =>
      exact
        ⟨sound.verdict, sound.closed, sound.waiting, sound.undecided,
          sound.decided, sound.streaming, sound.resting⟩

end Invariant

/-! ## What the screen says -/

section Truth

/-- A display as it is started: the picker is not asked for beside an
endpoint. -/
inductive Opening : Viewer Db → Prop
  | started
      (endpoint : Option String) (discover : Bool)
      (candidates : List Endpoint) (images : Graphics)
      (exclusive : endpoint = none ∨ discover = false) :
      Opening (start endpoint discover candidates images)

/-- What a screen that has caught up says of the connection. -/
structure Truthful (viewer : Viewer Db) : Prop where
  streaming :
    ∀ endpoint rest, viewer.client.phase = .streaming endpoint rest →
      viewer.screen.connection = .connected ∧
        viewer.screen.endpoint = endpoint.label ∧
          viewer.screen.picker = none
  down :
    viewer.client.phase = .asleep → viewer.client.decided = true →
      viewer.screen.picker = none ∧
        viewer.screen.connection = connectionAfter viewer.client.update
  /-- The network's receivers are offered, or one of them was chosen. -/
  offered :
    viewer.client.phase = .asleep → viewer.client.decided = false →
      viewer.screen.picker ≠ none ∨ viewer.selections ≠ []

variable
    {floats : Floats Db}
    {decode : String → Option Bytes}
    {opening viewer : Viewer Db}
    {schedule : List Act}

theorem Opening.sound (opens : opening.Opening) : opening.Sound := by
  cases opens with
  | started _ _ candidates images exclusive =>
      exact sound_start exclusive candidates images

theorem sound_of_exec
    (opens : opening.Opening)
    (reached :
      (system floats decode opening).exec opening schedule =
        some viewer) :
    viewer.Sound :=
  System.invariant_of_reached Sound
    (fun _ _ _ holds stepped => sound_step holds stepped)
    opens.sound reached

end Truth

end Viewer

/-! ## The choice -/

/-- The endpoint that is being tried. -/
def Phase.tried : Phase → List Endpoint
  | .attempting endpoint _ => [endpoint]
  | _ => []

namespace Viewer

/-- What an act chooses on the picker. -/
def choices (viewer : Viewer Db) : Act → List Endpoint
  | .choose => viewer.screen.choose.2.toList
  | _ => []

/-- The endpoint that an act makes the client try. -/
def attempts (viewer : Viewer Db) : Act → List Endpoint
  | .advance =>
      match viewer.client.phase with
      | .round rest => (viewer.advance rest).client.phase.tried
      | _ => []
  | _ => []

/-- What became of the choices that were made. -/
inductive Follows (viewer : Viewer Db) : List Endpoint → Prop
  | fresh
      (unused : viewer.screen.chosen = false)
      (nothing : viewer.selections = []) :
      Follows viewer []
  | waits
      (endpoint : Endpoint)
      (used : viewer.screen.chosen = true)
      (undecided : viewer.client.decided = false)
      (waiting : viewer.selections = [endpoint]) :
      Follows viewer [endpoint]
  | taken
      (endpoint : Endpoint)
      (used : viewer.screen.chosen = true)
      (decided : viewer.client.decided = true)
      (nothing : viewer.selections = [])
      (only : viewer.client.endpoints = [endpoint])
      (within :
        ∀ other ∈ viewer.client.phase.endpoints, other = endpoint) :
      Follows viewer [endpoint]

section Choice

variable
    {floats : Floats Db}
    {decode : String → Option Bytes}
    {viewer next : Viewer Db}
    {act : Act}
    {log : List Endpoint}

theorem follows_start
    (endpoint : Option String) (discover : Bool)
    (candidates : List Endpoint) (images : Graphics) :
    (start endpoint discover candidates images : Viewer Db).Follows
      [] := by
  cases endpoint <;> cases discover <;> exact Follows.fresh rfl rfl

theorem continues_refl (client : Client Db) : client.Continues client :=
  ⟨rfl, rfl, Or.inl rfl, fun _ there => Or.inl there⟩

/-- Nothing is chosen or taken. -/
theorem Follows.of_same
    (follows : viewer.Follows log)
    (chosen : next.screen.chosen = viewer.screen.chosen)
    (selections : next.selections = viewer.selections)
    (continues : viewer.client.Continues next.client) :
    next.Follows log := by
  cases follows with
  | fresh unused nothing =>
      exact Follows.fresh (chosen.trans unused) (selections.trans nothing)
  | waits endpoint used undecided waiting =>
      exact
        Follows.waits endpoint (chosen.trans used)
          (continues.decided.trans undecided) (selections.trans waiting)
  | taken endpoint used decided nothing only within =>
      refine
        Follows.taken endpoint (chosen.trans used)
          (continues.decided.trans decided) (selections.trans nothing)
          (continues.endpoints.trans only) ?_
      intro other there
      rcases continues.within other there with left | again
      · exact within other left
      · rw [only] at again
        exact List.mem_singleton.mp again

theorem Follows.selected
    (follows : viewer.Follows log)
    (undecided : viewer.client.decided = false)
    {choice : Endpoint} {later : List Endpoint}
    (waiting : viewer.selections = choice :: later) :
    (viewer.selected choice later).Follows log := by
  cases follows with
  | fresh _ nothing => cases nothing.symm.trans waiting
  | waits endpoint used _ only =>
      cases only.symm.trans waiting
      exact
        Follows.taken choice used rfl rfl rfl fun _ there =>
          List.mem_singleton.mp there
  | taken _ _ decided => cases undecided.symm.trans decided

/-- Only one choice is ever made. -/
theorem Follows.choose
    (sound : viewer.Sound) (follows : viewer.Follows log) :
    viewer.choose.Follows (log ++ viewer.screen.choose.2.toList) := by
  rcases choose_cases viewer.screen with
    nothing | ⟨endpoint, up, choice, chosen, -⟩
  · have same : viewer.choose.selections = viewer.selections := by
      show viewer.selections ++ viewer.screen.choose.2.toList = _
      rw [nothing]
      exact List.append_nil _
    have still :
        viewer.choose.screen.chosen = viewer.screen.chosen := by
      show viewer.screen.choose.1.chosen = _
      rw [nothing]
    have none : log ++ viewer.screen.choose.2.toList = log := by
      rw [nothing]
      exact List.append_nil _
    rw [none]
    exact follows.of_same still same (continues_refl _)
  · have unused : viewer.screen.chosen ≠ true := fun used =>
      up (sound.closed used)
    have undecided : viewer.client.decided = false := by
      rw [← Bool.not_eq_true]
      exact fun decided => up (sound.decided decided).1
    cases follows with
    | waits _ used => exact absurd used unused
    | taken _ used => exact absurd used unused
    | fresh _ nothing =>
        rw [choice]
        refine Follows.waits endpoint chosen undecided ?_
        show viewer.selections ++ viewer.screen.choose.2.toList = _
        rw [nothing, choice]
        rfl

theorem follows_step
    (sound : viewer.Sound) (follows : viewer.Follows log)
    (stepped : step floats decode viewer act = some next) :
    next.Follows (log ++ choices viewer act) := by
  by_cases choosing : act = .choose
  · subst choosing
    simp only [step] at stepped
    split at stepped <;> cases stepped
    exact follows.choose sound
  · have none : choices viewer act = [] := by
      cases act <;> first | rfl | exact absurd rfl choosing
    rw [none, List.append_nil]
    cases moves_of_step stepped with
    | goes _ continues => exact follows.of_same rfl rfl continues
    | stops continues => exact follows.of_same rfl rfl continues
    | tells continues => exact follows.of_same rfl rfl continues
    | selects _ undecided waiting =>
        exact follows.selected undecided waiting
    | skips => exact follows
    | stays => exact follows
    | discovers => exact follows.of_same rfl rfl (continues_refl _)
    | delivers =>
        exact
          follows.of_same (chosen_deliver _ _) rfl (continues_refl _)
    | moves delta =>
        exact
          follows.of_same (connection_pickerMove _ delta).2.2.1 rfl
            (continues_refl _)
    | chooses => exact absurd rfl choosing
    | quits => exact follows.of_same rfl rfl (continues_refl _)
    | leaves => exact follows.of_same rfl rfl (continues_refl _)

/-- What is tried is next in the round, and no choice waits. -/
theorem tried_advance
    {rest : List Endpoint} {endpoint : Endpoint}
    (tried : endpoint ∈ (viewer.advance rest).client.phase.tried) :
    endpoint ∈ rest ∧
      (viewer.client.decided = true ∨ viewer.selections = []) := by
  cases rest with
  | nil =>
      have nothing : (viewer.advance []).client.phase.tried = [] := by
        rw [advance.eq_def]
        show (send _ _ _).client.phase.tried = []
        rw [send]
        split <;> rfl
      rw [nothing] at tried
      cases tried
  | cons first rest =>
      by_cases decided : viewer.client.decided = true
      · have tries :
            (viewer.advance (first :: rest)).client.phase.tried =
              [first] := by
          rw [advance, if_pos decided]
          rfl
        rw [tries] at tried
        rw [List.mem_singleton.mp tried]
        exact ⟨List.mem_cons_self, Or.inl decided⟩
      · rw [advance, if_neg decided, probe] at tried
        cases selections : viewer.selections with
        | cons choice later =>
            rw [selections] at tried
            cases tried
        | nil =>
            rw [selections] at tried
            refine ⟨?_, Or.inr rfl⟩
            cases choosing : viewer.choosing with
            | true =>
                simp only [proceed, Client.enter, choosing, if_true]
                  at tried
                rw [List.mem_singleton.mp tried]
                exact List.mem_cons_self
            | false =>
                simp only [proceed, Client.enter, choosing] at tried
                cases tried

theorem attempts_cases
    {endpoint : Endpoint} (tried : endpoint ∈ attempts viewer act) :
    endpoint ∈ viewer.client.phase.endpoints ∧
      (viewer.client.decided = true ∨ viewer.selections = []) := by
  cases act with
  | advance =>
      rw [attempts] at tried
      split at tried
      · next rest round =>
          rw [round]
          exact tried_advance tried
      · cases tried
  | _ => cases tried

/-- Once there is a choice, nothing else is tried. -/
theorem eq_of_attempts
    {choice endpoint : Endpoint}
    (follows : viewer.Follows [choice])
    (tried : endpoint ∈ attempts viewer act) : endpoint = choice := by
  rcases attempts_cases tried with ⟨inRound, either⟩
  cases follows with
  | waits _ _ undecided waiting =>
      rcases either with decided | nothing
      · cases undecided.symm.trans decided
      · cases nothing.symm.trans waiting
  | taken _ _ _ _ _ within => exact within endpoint inRound

/-- There is one choice at most. -/
theorem Follows.eq_singleton
    {choice : Endpoint}
    (follows : viewer.Follows log) (there : choice ∈ log) :
    log = [choice] := by
  cases follows with
  | fresh => cases there
  | waits => rw [List.mem_singleton.mp there]
  | taken => rw [List.mem_singleton.mp there]

theorem Follows.step
    {choice : Endpoint}
    (sound : viewer.Sound) (follows : viewer.Follows [choice])
    (stepped : Viewer.step floats decode viewer act = some next) :
    next.Follows [choice] := by
  have after := follows_step sound follows stepped
  have same :=
    after.eq_singleton (List.mem_append_left _ List.mem_cons_self)
  rwa [same] at after

theorem Opening.follows (opens : viewer.Opening) : viewer.Follows [] := by
  cases opens with
  | started endpoint discover candidates images _ =>
      exact follows_start endpoint discover candidates images

end Choice

/-! ## What the receiver says -/

/-- The messages among the updates. -/
def messages (updates : List (Update Db)) : List (Message Db) :=
  updates.filterMap fun
    | .message message => some message
    | _ => none

/-- What the screen shows once it has taken everything that is pending. -/
def told (decode : String → Option Bytes) (viewer : Viewer Db) :
    NowPlaying Db :=
  viewer.screen.nowPlaying.applyAll decode (messages viewer.updates)

/-- What a frame tells the display. -/
def heard (floats : Floats Db) : Act → List (Message Db)
  | .frame (.text text) => (parse floats text).toList
  | _ => []

/-- The texts of the connection, which is new with every handshake. -/
def received (texts : List String) : Act → List String
  | .connect => []
  | .frame (.text text) => texts ++ [text]
  | _ => texts

section Messages

variable
    {floats : Floats Db}
    {decode : String → Option Bytes}
    {viewer next : Viewer Db}
    {act : Act}

theorem applyAll_append
    (display : NowPlaying Db) (first second : List (Message Db)) :
    display.applyAll decode (first ++ second) =
      (display.applyAll decode first).applyAll decode second :=
  List.foldl_append

theorem heard_of_textless
    (textless : ∀ text, act ≠ .frame (.text text)) :
    heard floats act = [] := by
  cases act with
  | frame message =>
      cases message with
      | text text => exact absurd rfl (textless text)
      | _ => rfl
  | _ => rfl

/-- A report that is no message leaves what the screen is told. -/
theorem messages_reports
    {client : Client Db} {update : Update Db} {phase : Phase}
    (verdict :
      client.update = .disconnected ∨ client.update = .unauthorized)
    (reports : client.Reports floats act update phase) :
    messages [update] = heard floats act := by
  cases reports with
  | connected => rfl
  | heard _ known =>
      show [_] = (parse floats _).toList
      rw [known]
      rfl
  | verdict =>
      rcases verdict with same | same <;> rw [same] <;> rfl
  | nobody => rfl
  | dropped textless => exact (heard_of_textless textless).symm

theorem told_deliver
    {update : Update Db} {rest : List (Update Db)}
    (first : viewer.updates = update :: rest) :
    (viewer.screen.apply decode update).nowPlaying.applyAll decode
        (messages rest) =
      viewer.told decode := by
  rw [told, first]
  cases update with
  | noLocalReceiver =>
      rw [Screen.apply]
      split <;> rfl
  | discovery discovery => cases discovery <;> rfl
  | _ => rfl

/-- Only a frame tells the display anything. -/
theorem told_step
    (sound : viewer.Sound)
    (stepped : step floats decode viewer act = some next) :
    next.client.phase = .stopped ∨
      next.told decode =
        (viewer.told decode).applyAll decode (heard floats act) := by
  have append (update : Update Db) :
      viewer.screen.nowPlaying.applyAll decode
          (messages (viewer.updates ++ [update])) =
        (viewer.told decode).applyAll decode (messages [update]) := by
    rw [messages, List.filterMap_append, applyAll_append]
    rfl
  cases moves_of_step stepped with
  | goes textless =>
      right
      rw [heard_of_textless textless]
      rfl
  | stops _ phase => exact Or.inl phase
  | tells _ reports =>
      right
      rw [← messages_reports sound.verdict reports]
      exact append _
  | selects textless =>
      right
      rw [heard_of_textless textless]
      rfl
  | skips unknown =>
      right
      show _ = NowPlaying.applyAll decode _ (parse floats _).toList
      rw [unknown]
      rfl
  | stays textless =>
      right
      rw [heard_of_textless textless]
      rfl
  | discovers discovery => exact Or.inr (append _)
  | delivers first => exact Or.inr (told_deliver first)
  | moves delta =>
      right
      show NowPlaying.applyAll decode _ (messages viewer.updates) = _
      rw [(connection_pickerMove _ delta).2.2.2]
      rfl
  | chooses =>
      right
      show
        viewer.screen.choose.1.nowPlaying.applyAll decode
            (messages viewer.updates) =
          _
      rw [nowPlaying_choose]
      rfl
  | quits => exact Or.inr rfl
  | leaves => exact Or.inr rfl

theorem stopped_step
    (stopped : viewer.client.phase = .stopped)
    (stepped : step floats decode viewer act = some next) :
    next.client.phase = .stopped := by
  cases act with
  | discover discovery =>
      simp only [step] at stepped
      split at stepped <;> cases stepped <;> exact stopped
  | deliver =>
      simp only [step] at stepped
      split at stepped <;> cases stepped
      exact stopped
  | pickerMove delta =>
      simp only [step] at stepped
      split at stepped <;> cases stepped
      exact stopped
  | choose =>
      simp only [step] at stepped
      split at stepped <;> cases stepped
      exact stopped
  | quit =>
      simp only [step] at stepped
      split at stepped <;> cases stepped
      exact stopped
  | leave =>
      simp only [step] at stepped
      split at stepped <;> cases stepped
      exact stopped
  | _ =>
      simp only [step, stopped] at stepped
      cases stepped

/-- The screen is told what the texts of the connection say. -/
def Tells
    (floats : Floats Db) (decode : String → Option Bytes)
    (texts : List String) (viewer : Viewer Db) : Prop :=
  viewer.client.phase = .stopped ∨
    ∃ start : NowPlaying Db,
      viewer.told decode =
        start.applyAll decode (readFrames floats texts)

theorem Tells.step
    {texts : List String}
    (sound : viewer.Sound) (tells : viewer.Tells floats decode texts)
    (stepped : Viewer.step floats decode viewer act = some next) :
    next.Tells floats decode (received texts act) := by
  rcases tells with stopped | ⟨start, same⟩
  · exact Or.inl (stopped_step stopped stepped)
  · rcases told_step sound stepped with stopped | after
    · exact Or.inl stopped
    · right
      cases act with
      | connect => exact ⟨next.told decode, rfl⟩
      | frame message =>
          cases message with
          | text text =>
              refine ⟨start, ?_⟩
              rw [after, same, ← applyAll_append]
              show start.applyAll decode (_ ++ (parse floats text).toList) =
                start.applyAll decode (readFrames floats (texts ++ [text]))
              rw [readFrames, readFrames, List.filterMap_append]
              cases known : parse floats text <;> simp [known]
          | _ => exact ⟨start, after.trans same⟩
      | _ => exact ⟨start, after.trans same⟩

theorem tells_of_exec
    {schedule : List Act} {texts : List String}
    (sound : viewer.Sound) (tells : viewer.Tells floats decode texts)
    {opening final : Viewer Db}
    (reached :
      (system floats decode opening).exec viewer schedule = some final) :
    final.Tells floats decode (schedule.foldl received texts) := by
  induction schedule generalizing viewer texts with
  | nil =>
      rw [System.exec_nil, Option.some.injEq] at reached
      rw [← reached]
      exact tells
  | cons act rest induction =>
      rw [System.exec_cons_iff] at reached
      rcases reached with ⟨next, stepped, reachedRest⟩
      exact
        induction (sound_step sound stepped) (tells.step sound stepped)
          reachedRest

end Messages

/-! ## Reconnecting -/

/-- How long the client slept when an act wakes it, in milliseconds. -/
def slept (viewer : Viewer Db) : Act → List Nat
  | .wake => [viewer.client.backoff]
  | _ => []

/-- The delay after so many rounds without a connection. -/
def delay (rounds : Nat) : Nat :=
  min (firstBackoff * 2 ^ rounds) maxBackoff

/-- No connection was there, no password was asked for, nothing chosen. -/
def Fruitless (act : Act) : Prop :=
  act ≠ .fail true ∧ act ≠ .ended ∧ act ≠ .frame .close ∧ act ≠ .choose

theorem delay_succ (rounds : Nat) :
    min (delay rounds * 2) maxBackoff = delay (rounds + 1) := by
  rw [delay, delay, pow_succ, firstBackoff, maxBackoff]
  omega

section Reconnecting

variable
    {floats : Floats Db}
    {decode : String → Option Bytes}
    {viewer next : Viewer Db}
    {act : Act}

theorem send_backoff (update : Update Db) (client : Client Db) :
    (viewer.send update client).client.backoff = client.backoff ∧
      (viewer.send update client).selections = viewer.selections := by
  rw [send]
  split <;> exact ⟨rfl, rfl⟩

theorem advance_backoff
    (rest : List Endpoint) (nothing : viewer.selections = []) :
    (viewer.advance rest).client.backoff = viewer.client.backoff ∧
      (viewer.advance rest).selections = [] := by
  cases rest with
  | nil =>
      rcases
        @send_backoff _ viewer
          (if viewer.client.decided then viewer.client.update
          else .noLocalReceiver)
          (viewer.client.enter .asleep)
        with ⟨backoff, selections⟩
      exact ⟨backoff, selections.trans nothing⟩
  | cons endpoint rest =>
      rw [advance]
      split
      · exact ⟨rfl, nothing⟩
      · rw [probe, nothing]
        exact ⟨rfl, nothing⟩

/-- Only waking up changes the delay. -/
theorem backoff_step
    (nothing : viewer.selections = []) (fruitless : Fruitless act)
    (stepped : step floats decode viewer act = some next) :
    next.selections = [] ∧
      next.client.backoff =
        if act = .wake then min (viewer.client.backoff * 2) maxBackoff
        else viewer.client.backoff := by
  cases act with
  | advance =>
      simp only [step] at stepped
      split at stepped <;> cases stepped
      next rest _ =>
        exact
          ⟨(advance_backoff rest nothing).2,
            (advance_backoff rest nothing).1⟩
  | fail unauthorized =>
      have authorized : unauthorized = false := by
        cases unauthorized
        · rfl
        · exact absurd rfl fruitless.1
      subst authorized
      simp only [step] at stepped
      split at stepped <;> cases stepped <;> exact ⟨nothing, rfl⟩
  | connect =>
      simp only [step] at stepped
      split at stepped <;> cases stepped
      rcases
        @send_backoff _ viewer (.connected _)
          (viewer.client.enter (.streaming _ _))
        with ⟨backoff, selections⟩
      exact ⟨selections.trans nothing, backoff⟩
  | frame message =>
      simp only [step] at stepped
      split at stepped
      · cases stepped
        rw [hear]
        split
        · next message _ =>
            rcases
              @send_backoff _ viewer (.message message) viewer.client
              with ⟨backoff, selections⟩
            exact ⟨selections.trans nothing, backoff⟩
        · exact ⟨nothing, rfl⟩
      · exact absurd rfl fruitless.2.2.1
      · cases stepped
        exact ⟨nothing, rfl⟩
      · cases stepped
  | ended => exact absurd rfl fruitless.2.1
  | wake =>
      simp only [step] at stepped
      split at stepped <;> cases stepped
      exact ⟨nothing, rfl⟩
  | select =>
      simp only [step, nothing] at stepped
      split at stepped
      · split at stepped <;> cases stepped
        exact ⟨nothing, rfl⟩
      · cases stepped
  | discover discovery =>
      simp only [step] at stepped
      split at stepped <;> cases stepped <;> exact ⟨nothing, rfl⟩
  | deliver =>
      simp only [step] at stepped
      split at stepped <;> cases stepped
      exact ⟨nothing, rfl⟩
  | choose => exact absurd rfl fruitless.2.2.2
  | _ =>
      simp only [step] at stepped
      split at stepped <;> cases stepped
      exact ⟨nothing, rfl⟩

/-- A client as it is started waits as long as before any round. -/
theorem Opening.backoff (opens : viewer.Opening) :
    viewer.selections = [] ∧ viewer.client.backoff = delay 0 := by
  cases opens with
  | started endpoint discover candidates images _ =>
      cases endpoint <;> cases discover <;> exact ⟨rfl, rfl⟩

/--
While no connection comes about, the client sleeps between its rounds for
half a second, then for twice as long as before, and never for more than five
seconds.
-/
theorem sleeps_double
    {opening : Viewer Db} {schedule : List Act}
    (opens : opening.Opening)
    (fruitless : ∀ act ∈ schedule, Fruitless act)
    (reached :
      (system floats decode opening).exec opening schedule =
        some viewer) :
    (system floats decode opening).collect slept opening schedule =
      (List.range
        ((system floats decode opening).collect slept opening
          schedule).length).map delay := by
  have preserved (viewer : Viewer Db) (log : List Nat) (act : Act)
      (next : Viewer Db)
      (holds :
        viewer.selections = [] ∧
          viewer.client.backoff = delay log.length ∧
            log = (List.range log.length).map delay)
      (fruitless : Fruitless act)
      (stepped : step floats decode viewer act = some next) :
      next.selections = [] ∧
        next.client.backoff =
            delay (log ++ slept viewer act).length ∧
          log ++ slept viewer act =
            (List.range (log ++ slept viewer act).length).map delay := by
    rcases holds with ⟨nothing, backoff, same⟩
    rcases backoff_step nothing fruitless stepped with ⟨still, after⟩
    refine ⟨still, ?_⟩
    by_cases wakes : act = .wake
    · rw [if_pos wakes, backoff, delay_succ] at after
      rw [wakes, slept, List.length_append, List.length_singleton,
        List.range_succ, List.map_append, ← same, backoff]
      exact ⟨after, rfl⟩
    · have none : slept viewer act = [] := by
        cases act <;> first | rfl | exact absurd rfl wakes
      rw [if_neg wakes] at after
      rw [none, List.append_nil]
      exact ⟨after.trans backoff, same⟩
  have before :
      opening.selections = [] ∧
        opening.client.backoff = delay ([] : List Nat).length ∧
          [] = (List.range ([] : List Nat).length).map delay :=
    ⟨opens.backoff.1, opens.backoff.2, rfl⟩
  exact
    (System.invariant_of_collect_of_meets _ preserved before
      (System.meets_of_forall_mem fruitless _) reached).2.2

end Reconnecting

/-! ## A picker on the network -/

/-- `--discover`, of a display without artwork. -/
def kitchen : Viewer (Option Int) :=
  start none true [] { protocol := .none, tmux := false }

theorem kitchen_opening : kitchen.Opening :=
  Opening.started none true [] _ (Or.inl rfl)

def artless (_ : String) : Option Bytes := none

/-- A receiver turns up, is chosen, and answers. -/
def choosesKitchen : List Act :=
  [.advance,
    .discover (.receivers [⟨"Kitchen", "ws://10.0.0.5:7392", false⟩]),
    .deliver, .deliver, .choose, .select, .advance, .connect, .deliver]

/-- The receiver goes away, and the client comes back to it. -/
def comesBack : List Act :=
  [.ended, .advance, .wake, .advance, .fail false, .advance, .wake,
    .advance]

/-- Seven rounds without an answer. -/
def nobodyThere : List Act :=
  (List.replicate 7 [.advance, .wake]).flatten

theorem sleeps_double_nobodyThere :
    (system wholeDecibels artless kitchen).collect slept kitchen
        nobodyThere =
      [500, 1000, 2000, 4000, 5000, 5000, 5000] := by
  have run :
      ((system wholeDecibels artless kitchen).exec kitchen
          nobodyThere).isSome = true := by
    decide +kernel
  rcases Option.isSome_iff_exists.mp run with ⟨final, reached⟩
  have either :
      ∀ act ∈ nobodyThere, act = .advance ∨ act = .wake := by
    decide +kernel
  have fruitless : ∀ act ∈ nobodyThere, Fruitless act := by
    intro act there
    rcases either act there with rfl | rfl <;> simp [Fruitless]
  have doubles := sleeps_double kitchen_opening fruitless reached
  have length :
      ((system wholeDecibels artless kitchen).collect slept kitchen
        nobodyThere).length = 7 := by
    decide +kernel
  rw [doubles, length]
  decide

/-- A receiver is told the volume before a display connects. -/
def turnedDown : List (Display.Act (Option Int)) :=
  [.publish (.volume (some (-12))), .broadcast, .subscribe, .sendSnapshot]

/-- What it knows then. -/
def quiet : Snapshot (Option Int) where
  receiver := { name := "Kitchen", version := "0.4.0" }
  session := none
  track := none
  volumeDb := some (some (-12))
  progress := none
  artwork := none
  paused := false

/-- The snapshot arrives, and the display takes it. -/
def hearsKitchen : List Act :=
  choosesKitchen ++
    [.frame (.text (encode wholeDecibels (.snapshot quiet))), .deliver]

end Viewer

end OpenAirplay2.Display
