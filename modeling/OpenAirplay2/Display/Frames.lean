import OpenAirplay2.Display.Wire

/-!
# The text frames of a run

A receiver encodes what it sends, and a display folds what it can read.  The
texts that a client was sent begin with a snapshot, and nothing in them is
lost on the way where every volume is a number, as it is after
`sanitize_volume`: a display that reads them shows what the receiver
published, whatever it showed before.
-/

namespace OpenAirplay2.Display

open OpenAirplay2.Control (Event)
open OpenAirplay2.Lib.Transition
open OpenAirplay2.Pairing (Bytes)

variable {Db : Type}

/-! ## What is not lost on the way -/

/-- Within the types of its fields, and with a number for the volume. -/
structure Snapshot.Intact
    (floats : Floats Db) (snapshot : Snapshot Db) : Prop where
  inRange : snapshot.InRange
  volume :
    ∀ db, snapshot.volumeDb = some db → (floats.write db).isSome = true

/-- The same of a message. -/
def Message.Intact (floats : Floats Db) : Message Db → Prop
  | .snapshot known => known.Intact floats
  | .volume db => (floats.write db).isSome = true
  | message => message.InRange

/-- The same of an event: a `u32`, a `u8` and a sanitized volume. -/
def EventIntact (floats : Floats Db) : Event Db → Prop
  | .sessionStarted rate channels _ => rate < 2 ^ 32 ∧ channels < 2 ^ 8
  | .volume db => (floats.write db).isSome = true
  | _ => True

section Intact

variable {floats : Floats Db}

theorem Message.Intact.inRange
    {message : Message Db} (intact : message.Intact floats) :
    message.InRange := by
  cases message with
  | snapshot => exact Snapshot.Intact.inRange intact
  | volume => trivial
  | _ => exact intact

/-- A display reads what was sent. -/
theorem Message.Intact.received
    {message : Message Db} (intact : message.Intact floats) :
    message.received floats = some message := by
  cases message with
  | snapshot snapshot =>
      have volume :
          (snapshot.volumeDb.filter fun db =>
              (floats.write db).isSome) =
            snapshot.volumeDb := by
        cases known : snapshot.volumeDb with
        | none => rfl
        | some db =>
            rw [Option.filter_some,
              if_pos (Snapshot.Intact.volume intact db known)]
      show some (Message.snapshot { snapshot with volumeDb := _ }) = _
      rw [volume]
  | volume db => exact if_pos intact
  | _ => rfl

theorem intact_toMessage
    {wire : Wire} {event : Event Db} {message : Message Db}
    (intact : EventIntact floats event)
    (isMessage : toMessage wire event = some message) :
    message.Intact floats := by
  cases event with
  | sessionStarted rate channels peer =>
      cases isMessage
      exact intact
  | volume db =>
      cases isMessage
      exact intact
  | progress elapsed duration =>
      cases isMessage
      exact ⟨Nat.mod_lt _ (by decide), Nat.mod_lt _ (by decide)⟩
  | _ =>
      cases isMessage
      trivial

/-- A message changes only what it states. -/
theorem Snapshot.Intact.apply
    {snapshot : Snapshot Db} {message : Message Db}
    (intact : snapshot.Intact floats)
    (intactMessage : message.Intact floats) :
    (snapshot.apply message).Intact floats := by
  cases message with
  | snapshot replacement => exact intactMessage
  | sessionStarted rate channels peer =>
      refine ⟨⟨?_, intact.inRange.progress⟩, intact.volume⟩
      rintro session ⟨⟩
      exact intactMessage
  | volume db =>
      refine ⟨⟨intact.inRange.session, intact.inRange.progress⟩, ?_⟩
      rintro other ⟨⟩
      exact intactMessage
  | progress elapsedMs durationMs =>
      refine ⟨⟨intact.inRange.session, ?_⟩, intact.volume⟩
      rintro progress ⟨⟩
      exact intactMessage
  | sessionEnded =>
      refine ⟨⟨?_, ?_⟩, ?_⟩
      · rintro session ⟨⟩
      · rintro progress ⟨⟩
      · rintro db ⟨⟩
  | _ =>
      exact
        ⟨⟨intact.inRange.session, intact.inRange.progress⟩,
          intact.volume⟩

end Intact

/-! ## The frames of a client -/

/-- Everything in the publisher and in the client's frames is intact. -/
structure Feed.Intact (floats : Floats Db) (feed : Feed Db) : Prop where
  snapshot : feed.snapshot.Intact floats
  publishing :
    ∀ message, feed.publishing = some message → message.Intact floats
  sent : ∀ message ∈ feed.sent, message.Intact floats
  frames : ∀ message ∈ feed.frames, message.Intact floats

/-- A client that was sent anything was sent a snapshot first. -/
structure Feed.Opens (feed : Feed Db) : Prop where
  opening :
    ∀ first rest, feed.frames = first :: rest →
      ∃ snapshot, first = .snapshot snapshot
  started :
    feed.client = .streaming ∨ feed.client = .lagged → feed.frames ≠ []

section Steps

variable
    {floats : Floats Db}
    {wire : Wire}
    {feed next : Feed Db}

theorem Feed.Opens.append
    (opens : feed.Opens) (nonempty : feed.frames ≠ [])
    (message : Message Db) {first : Message Db}
    {rest : List (Message Db)}
    (split : feed.frames ++ [message] = first :: rest) :
    ∃ snapshot, first = .snapshot snapshot := by
  cases frames : feed.frames with
  | nil => exact absurd frames nonempty
  | cons head tail =>
      rw [frames, List.cons_append] at split
      rw [← List.head_eq_of_cons_eq split]
      exact opens.opening head tail frames

theorem Feed.opens_sendSnapshot
    (opens : feed.Opens) : feed.sendSnapshot.Opens := by
  constructor
  · intro first rest split
    by_cases empty : feed.frames = []
    · have only : feed.frames ++ [.snapshot feed.snapshot] =
          first :: rest := split
      rw [empty, List.nil_append] at only
      exact ⟨_, (List.head_eq_of_cons_eq only).symm⟩
    · exact opens.append empty _ split
  · intro _ empty
    cases (List.append_eq_nil_iff.mp empty).2

theorem Feed.Intact.broadcast
    {message : Message Db}
    (intact : feed.Intact floats)
    (publishing : feed.publishing = some message) :
    (feed.broadcast message).Intact floats := by
  constructor
  · exact intact.snapshot
  · rintro other ⟨⟩
  · intro other there
    have either : other ∈ feed.sent ∨ other = message := by
      unfold Feed.broadcast at there
      dsimp only at there
      split at there
      · exact Or.inl there
      · simpa using there
    rcases either with before | rfl
    · exact intact.sent other before
    · exact intact.publishing other publishing
  · exact intact.frames

theorem intact_step
    {act : Act Db}
    (intact : feed.Intact floats)
    (event :
      ∀ event, act.published = some event → EventIntact floats event)
    (stepped : step wire feed act = some next) :
    next.Intact floats := by
  cases act with
  | publish published =>
      simp only [step] at stepped
      split at stepped
      · cases stepped
        unfold Feed.publish
        split
        · exact intact
        · next message isMessage =>
            have sent := intact_toMessage (event published rfl) isMessage
            constructor
            · exact intact.snapshot.apply sent
            · rintro other ⟨⟩
              exact sent
            · exact intact.sent
            · exact intact.frames
      · cases stepped
  | broadcast =>
      rcases Option.map_eq_some_iff.mp stepped with
        ⟨message, publishing, rfl⟩
      exact intact.broadcast publishing
  | others count =>
      cases stepped
      exact
        ⟨intact.snapshot, intact.publishing, intact.sent, intact.frames⟩
  | subscribe =>
      simp only [step] at stepped
      split at stepped <;> cases stepped
      exact
        ⟨intact.snapshot, intact.publishing, intact.sent,
          fun _ there => absurd there List.not_mem_nil⟩
  | sendSnapshot =>
      have sends : (feed.sendSnapshot).Intact floats := by
        refine
          ⟨intact.snapshot, intact.publishing, intact.sent, ?_⟩
        intro other there
        rcases List.mem_append.mp there with before | isLast
        · exact intact.frames other before
        · rw [List.mem_singleton.mp isLast]
          exact intact.snapshot
      simp only [step] at stepped
      split at stepped <;> cases stepped <;> exact sends
  | receive =>
      simp only [step] at stepped
      split at stepped
      · unfold Feed.receive at stepped
        split at stepped
        · cases stepped
          exact
            ⟨intact.snapshot, intact.publishing, intact.sent,
              intact.frames⟩
        · split at stepped
          · cases stepped
          · next message isNext =>
              cases stepped
              refine
                ⟨intact.snapshot, intact.publishing, intact.sent, ?_⟩
              intro other there
              rcases List.mem_append.mp there with before | isLast
              · exact intact.frames other before
              · rw [List.mem_singleton.mp isLast]
                exact intact.sent _ (List.mem_of_getElem? isNext)
      · cases stepped
  | disconnect =>
      simp only [step] at stepped
      split at stepped <;> cases stepped
      exact
        ⟨intact.snapshot, intact.publishing, intact.sent, intact.frames⟩

theorem opens_step
    {act : Act Db}
    (opens : feed.Opens) (stepped : step wire feed act = some next) :
    next.Opens := by
  cases act with
  | publish published =>
      simp only [step] at stepped
      split at stepped
      · cases stepped
        unfold Feed.publish
        split
        · exact opens
        · exact ⟨opens.opening, opens.started⟩
      · cases stepped
  | broadcast =>
      rcases Option.map_eq_some_iff.mp stepped with ⟨message, -, rfl⟩
      exact ⟨opens.opening, opens.started⟩
  | others count =>
      cases stepped
      exact ⟨opens.opening, opens.started⟩
  | subscribe =>
      simp only [step] at stepped
      split at stepped <;> cases stepped
      constructor
      · rintro first rest ⟨⟩
      · rintro (streaming | lagged)
        · cases streaming
        · cases lagged
  | sendSnapshot =>
      simp only [step] at stepped
      split at stepped <;> cases stepped <;>
        exact Feed.opens_sendSnapshot opens
  | receive =>
      simp only [step] at stepped
      split at stepped
      · next streaming =>
          have nonempty := opens.started (Or.inl streaming)
          unfold Feed.receive at stepped
          split at stepped
          · cases stepped
            exact ⟨opens.opening, fun _ => nonempty⟩
          · split at stepped
            · cases stepped
            · next message _ =>
                cases stepped
                constructor
                · intro first rest split
                  exact opens.append nonempty message split
                · intro _ empty
                  exact nonempty (List.append_eq_nil_iff.mp empty).1
      · cases stepped
  | disconnect =>
      simp only [step] at stepped
      split at stepped <;> cases stepped
      constructor
      · exact opens.opening
      · rintro (streaming | lagged)
        · cases streaming
        · cases lagged

end Steps

theorem intact_new (floats : Floats Db) (name version : String) :
    (Feed.new name version).Intact floats := by
  constructor
  · refine ⟨⟨?_, ?_⟩, ?_⟩
    · rintro session ⟨⟩
    · rintro progress ⟨⟩
    · rintro db ⟨⟩
  · rintro message ⟨⟩
  · exact fun _ there => absurd there List.not_mem_nil
  · exact fun _ there => absurd there List.not_mem_nil

theorem opens_new (name version : String) :
    (Feed.new name version : Feed Db).Opens := by
  constructor
  · rintro first rest ⟨⟩
  · rintro (streaming | lagged)
    · cases streaming
    · cases lagged

/-! ## What the frames say -/

/-- What a display makes of the texts it was sent. -/
def readFrames (floats : Floats Db) (texts : List String) :
    List (Message Db) :=
  texts.filterMap (parse floats)

section Run

variable
    {floats : Floats Db}
    {wire : Wire}
    {name version : String}
    {schedule : List (Act Db)}
    {feed : Feed Db}

theorem meets_of_published
    {condition : Event Db → Prop}
    (each : ∀ event ∈ published schedule, condition event)
    (feed : Feed Db) :
    (display wire name version).Meets
      (fun _ act =>
        ∀ event, act.published = some event → condition event)
      feed schedule := by
  apply System.meets_of_forall_mem
  intro act there event published
  exact each event (List.mem_filterMap.mpr ⟨act, there, published⟩)

theorem intact_of_exec
    (ordinary : ∀ event ∈ published schedule, EventIntact floats event)
    (reached :
      (display wire name version).exec
        (display wire name version).initial schedule = some feed) :
    feed.Intact floats :=
  System.invariant_of_meets (Feed.Intact floats)
    (fun _ _ _ intact event stepped => intact_step intact event stepped)
    (intact_new floats name version) (meets_of_published ordinary _)
    reached

end Run

end OpenAirplay2.Display
