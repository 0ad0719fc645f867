import OpenAirplay2.Control.Server

/-!
# What the session operations do outside the session

Two operations touch a sink: a `SETUP` that starts a buffered stream, and the
end of the session.  Every other operation is a sequence of moves: a few
fields change, or one quiet effect is added.  What a move keeps, these
operations keep.
-/

namespace OpenAirplay2.Control

open OpenAirplay2.Pairing (Bytes)

variable {Db : Type}

/-- The effect concerns neither a sink nor a guard. -/
def Effect.isQuiet : Effect Db → Bool
  | .openSink _ _ _ => false
  | .closeSink _ => false
  | .dropGuard _ => false
  | _ => true

/-- The effect concerns neither a stream nor the host. -/
def Effect.isSilent : Effect Db → Bool
  | .anchor _ => true
  | .setPaused _ _ => true
  | .flush _ _ => true
  | .spawn _ => true
  | .abort _ => true
  | _ => false

/-- What the host is told at any time. -/
def Event.isFree : Event Db → Bool
  | .volume _ => true
  | .flushed => true
  | _ => false

/-- What the host is told about a track. -/
def Event.isInside : Event Db → Bool
  | .metadata _ _ _ => true
  | .artwork _ _ => true
  | .progress _ _ => true
  | _ => false

/-! ## Moves -/

/--
The smallest parts of an operation that starts no stream; `pauses` says of
what pauses an active or inactive session tells.
-/
inductive Move (pauses : Bool → Bool → Prop) (session : Session Db) :
    Session Db → Prop where
  | update {next : Session Db}
      (effects : next.effects = session.effects)
      (player : next.player = session.player)
      (activeGuard : next.activeGuard = session.activeGuard)
      (streams : next.streams = session.streams)
      (sessionActive : next.sessionActive = session.sessionActive)
      (metadata :
        ∀ event ∈ next.pendingMetadata,
          event ∈ session.pendingMetadata ∨ event.isInside = true)
      (artwork :
        ∀ event ∈ next.pendingArtwork,
          event ∈ session.pendingArtwork ∨ event.isInside = true) :
      Move pauses session next
  | silent {effect : Effect Db} (silent : effect.isSilent = true) :
      Move pauses session (session.perform effect)
  | free {event : Event Db} (free : event.isFree = true) :
      Move pauses session (session.sendEvent event)
  | pause {paused : Bool}
      (allowed : pauses session.sessionActive paused) :
      Move pauses session (session.sendEvent (.paused paused))
  | inside {event : Event Db} (inside : event.isInside = true)
      (active : session.sessionActive = true) :
      Move pauses session (session.sendEvent event)
  | ended (active : session.sessionActive = true) :
      Move pauses session
        ({ session with sessionActive := false }.sendEvent .sessionEnded)

/-- One move after the other. -/
abbrev Moves (pauses : Bool → Bool → Prop) : Session Db → Session Db → Prop :=
  Relation.ReflTransGen (Move pauses)

namespace Moves

variable
    {pauses : Bool → Bool → Prop}
    {session middle : Session Db}

/-- Fields that concern neither the host nor the player change. -/
theorem update
    {next : Session Db}
    (effects : next.effects = session.effects)
    (player : next.player = session.player)
    (activeGuard : next.activeGuard = session.activeGuard)
    (streams : next.streams = session.streams)
    (sessionActive : next.sessionActive = session.sessionActive)
    (metadata : next.pendingMetadata = session.pendingMetadata)
    (artwork : next.pendingArtwork = session.pendingArtwork) :
    Moves pauses session next := by
  apply Relation.ReflTransGen.single
  apply Move.update effects player activeGuard streams sessionActive
  · rw [metadata]
    exact fun _ member => Or.inl member
  · rw [artwork]
    exact fun _ member => Or.inl member

theorem mono
    {weaker : Bool → Bool → Prop} {next : Session Db}
    (weaken :
      ∀ active paused, pauses active paused → weaker active paused)
    (moves : Moves pauses session next) :
    Moves weaker session next := by
  refine Relation.ReflTransGen.mono ?_ _ _ moves
  intro first second move
  cases move with
  | update effects player activeGuard streams active metadata artwork =>
      exact
        .update effects player activeGuard streams active metadata artwork
  | silent isSilent => exact .silent isSilent
  | free isFree => exact .free isFree
  | pause allowed => exact .pause (weaken _ _ allowed)
  | inside isInside active => exact .inside isInside active
  | ended active => exact .ended active

theorem silent
    (before : Moves pauses session middle) {effect : Effect Db}
    (isSilent : effect.isSilent = true) :
    Moves pauses session (middle.perform effect) :=
  before.tail (.silent isSilent)

theorem spawn
    (before : Moves pauses session middle) (task : Task) :
    Moves pauses session (middle.spawn task) :=
  (before.silent rfl).trans (update rfl rfl rfl rfl rfl rfl rfl)

theorem silentAll
    (before : Moves pauses session middle) {effects : List (Effect Db)}
    (silent : ∀ effect ∈ effects, effect.isSilent = true) :
    Moves pauses session (middle.performAll effects) := by
  induction effects generalizing middle with
  | nil =>
      rw [Session.performAll, List.append_nil]
      exact before
  | cons effect rest induction =>
      rw [List.forall_mem_cons] at silent
      have rest := induction (before.silent silent.1) silent.2
      rw [Session.performAll, Session.perform] at rest
      simp only [List.append_assoc, List.singleton_append] at rest
      exact rest

end Moves

section Operations

variable
    {pauses : Bool → Bool → Prop}
    (platform : Platform Db)
    (session : Session Db)

/-- The rate of the body says which pause the host is told. -/
def Pauses (platform : Platform Db) (body : Bytes) (paused : Bool) :
    Prop :=
  ∃ rate anchor,
    parseRateAnchor platform body = some (rate, anchor) ∧
      paused = (rate == 0)

theorem moves_setRateAnchor (body : Bytes) :
    Moves
      (fun active paused =>
        active = session.sessionActive ∧ Pauses platform body paused)
      session (session.setRateAnchor platform body) := by
  unfold Session.setRateAnchor
  split
  · exact .refl
  · next rate anchor parsed =>
      apply Relation.ReflTransGen.tail _
        (.pause ⟨rfl, rate, anchor, parsed, rfl⟩)
      apply Moves.silentAll .refl
      intro effect member
      rcases List.mem_map.mp member with ⟨stream, -, rfl⟩
      rfl

theorem moves_flush (body : Bytes) :
    Moves pauses session (session.flush platform body) := by
  have stored :
      Moves pauses session
        { session with
          flushUntilSeq :=
            (parseFlushUntilSeq platform body).getD
              session.flushUntilSeq } :=
    Moves.update rfl rfl rfl rfl rfl rfl rfl
  unfold Session.flush
  apply Relation.ReflTransGen.tail _ (.free rfl)
  apply stored.silentAll
  intro effect member
  rcases List.mem_map.mp member with ⟨stream, -, rfl⟩
  rfl

theorem moves_sendSessionEvent
    {event : Event Db} (inside : event.isInside = true) :
    Moves pauses session (session.sendSessionEvent event) := by
  unfold Session.sendSessionEvent
  split
  · next active => exact .single (.inside inside active)
  · split
    · apply Relation.ReflTransGen.single
      refine Move.update rfl rfl rfl rfl rfl ?_ ?_
      · exact fun _ member => Or.inl member
      · rintro latched ⟨rfl⟩
        exact Or.inr rfl
    · apply Relation.ReflTransGen.single
      refine Move.update rfl rfl rfl rfl rfl ?_ ?_
      · rintro latched ⟨rfl⟩
        exact Or.inr inside
      · exact fun _ member => Or.inl member

theorem moves_setProgress (value : String) :
    Moves pauses session (session.setProgress value) := by
  unfold Session.setProgress
  split
  · next start _ ends _ =>
      have tracked :
          Moves pauses session
            { session with
              track := some { start := start, ends := ends } } :=
        Moves.update rfl rfl rfl rfl rfl rfl rfl
      have anchored :
          Moves pauses session
            ({ session with
                track := some { start := start, ends := ends } }.perform
              (.anchor (some { start := start, ends := ends }))) :=
        tracked.silent rfl
      simp only
      split
      · next active => exact anchored.tail (.inside rfl active)
      · exact anchored
  · exact .refl

theorem moves_setTextLine (line : String) :
    Moves pauses session (session.setTextLine platform line) := by
  unfold Session.setTextLine
  split
  · split
    · next db _ =>
        have stored : Moves pauses session { session with volume := db } :=
          Moves.update rfl rfl rfl rfl rfl rfl rfl
        exact stored.tail (.free rfl)
    · exact .refl
  · split
    · exact moves_setProgress session _
    · exact .refl

theorem moves_setTextParameters (body : Bytes) :
    Moves pauses session (session.setTextParameters platform body) := by
  unfold Session.setTextParameters
  induction Lib.Str.lines (Lib.Str.fromUtf8Lossy body)
    generalizing session with
  | nil => exact .refl
  | cons line rest induction =>
      rw [List.foldl_cons]
      exact
        (moves_setTextLine platform session line).trans
          (induction (session.setTextLine platform line))

theorem moves_setParameter (contentType : Option String) (body : Bytes) :
    Moves pauses session
      (session.setParameter platform contentType body) := by
  unfold Session.setParameter
  split
  · exact moves_setTextParameters platform session body
  · split
    · unfold Session.setMetadata
      split
      · exact .refl
      · exact moves_sendSessionEvent session rfl
    · split
      · exact moves_sendSessionEvent session rfl
      · exact moves_setTextParameters platform session body

theorem moves_endSession :
    Moves pauses session session.endSession := by
  unfold Session.endSession
  split
  · next active => exact .single (.ended active)
  · exact .refl

end Operations

/-! ## Quiet operations -/

/-- The operation had only quiet effects and kept the player and the guard. -/
structure Quiet (session next : Session Db) : Prop where
  effects :
    ∃ extra, next.effects = session.effects ++ extra ∧
      ∀ effect ∈ extra, effect.isQuiet = true
  player : next.player = session.player
  activeGuard : next.activeGuard = session.activeGuard

namespace Quiet

theorem refl (session : Session Db) : Quiet session session where
  effects := ⟨[], by simp, fun _ member => nomatch member⟩
  player := rfl
  activeGuard := rfl

/-- One more effect after a quiet operation. -/
theorem perform
    {session middle : Session Db}
    (before : Quiet session middle) {effect : Effect Db}
    (quiet : effect.isQuiet = true) :
    Quiet session (middle.perform effect) where
  effects := by
    rcases before.effects with ⟨extra, effects, extraQuiet⟩
    refine ⟨extra ++ [effect], ?_, ?_⟩
    · rw [Session.perform, effects, List.append_assoc]
    · intro other member
      rcases List.mem_append.mp member with isExtra | isLast
      · exact extraQuiet other isExtra
      · rw [List.mem_singleton.mp isLast]
        exact quiet
  player := before.player
  activeGuard := before.activeGuard

theorem of_moves
    {pauses : Bool → Bool → Prop} {session next : Session Db}
    (moves : Moves pauses session next) :
    Quiet session next := by
  induction moves with
  | refl => exact refl session
  | tail _ move before =>
      cases move with
      | update effects player activeGuard streams _ _ _ =>
          constructor
          · rw [effects]
            exact before.effects
          · exact player.trans before.player
          · exact activeGuard.trans before.activeGuard
      | @silent effect isSilent =>
          apply before.perform
          cases effect <;> first | rfl | cases isSilent
      | free => exact before.perform rfl
      | pause => exact before.perform rfl
      | inside => exact before.perform rfl
      | ended =>
          have quiet :
              Quiet session (Session.sendEvent _ .sessionEnded) :=
            before.perform rfl
          exact ⟨quiet.effects, quiet.player, quiet.activeGuard⟩

end Quiet

/-- No stream is counted by a move. -/
theorem Moves.streams_eq
    {pauses : Bool → Bool → Prop} {session next : Session Db}
    (moves : Moves pauses session next) :
    next.streams = session.streams := by
  induction moves with
  | refl => rfl
  | tail _ move before =>
      rw [← before]
      cases move with
      | update _ _ _ streams _ _ _ => exact streams
      | _ => rfl

/-! ## The `SETUP` that starts a stream -/

/-- The fields of the first stream that a `SETUP` names. -/
def firstStream (platform : Platform Db) (body : Bytes) :
    Option Dictionary :=
  ((((platform.readPlist body).bind Value.asDictionary).bind
    fun dict => dict.get "streams").bind Value.asArray).bind
      fun streams => streams.head?.bind Value.asDictionary

/--
The body asks for a buffered stream with a key of 32 bytes, both sockets are
bound and there is a decoder.
-/
def startsStream (platform : Platform Db) (ports : Ports)
    (body : Bytes) : Bool :=
  match firstStream platform body with
  | none => false
  | some stream =>
      (stream.get "type").bind Value.asUnsignedInteger ==
          some typeBuffered &&
        (((stream.get "shk").bind Value.asData).bind
          audioDecryptor).isSome &&
        ports.first.isSome && ports.second.isSome &&
        aacDecoder platform
          (aacParams
            ((stream.get "audioFormat").bind Value.asUnsignedInteger))

/--
A stream was started: the factory was asked for a sink, and only after that
the player before it was dropped.
-/
structure Starts (session next : Session Db) : Prop where
  effects :
    ∃ before between after rate channels,
      next.effects =
          session.effects ++
            (before ++
              .openSink session.streams rate channels ::
                (between ++
                  (session.player.toList.map .closeSink ++ after))) ∧
        (∀ effect ∈ before, effect.isQuiet = true) ∧
          (∀ effect ∈ between, effect.isQuiet = true) ∧
            ∀ effect ∈ after, effect.isQuiet = true
  player : next.player = some session.streams
  activeGuard : next.activeGuard = session.activeGuard

/-- What a stream that starts does, in order. -/
def startEffects (session : Session Db) (key : Bytes) :
    List (Effect Db) :=
  let params := aacParams session.audioFormat
  let latched :=
    session.pendingMetadata.toList ++ session.pendingArtwork.toList
  .event (.sessionStarted params.1 params.2 session.peerIp) ::
      latched.map .event ++
    .openSink session.streams params.1 params.2 ::
      ([.anchor none, .startPlayer session.streams params.1] ++
        (session.player.toList.map .closeSink ++
          [.spawn
            (.bufferedAudio session.peerIp key session.streams
              (Player.maxQueuedSamples params.1 params.2))]))

theorem effects_startStream (session : Session Db) (key : Bytes) :
    (session.startStream key).effects =
      session.effects ++ startEffects session key := by
  simp [Session.startStream, Session.replacePlayer, Session.spawn,
    Session.sendEvent, Session.perform, Session.performAll, startEffects]

theorem starts_startStream (session : Session Db) (key : Bytes) :
    Starts session (session.startStream key) where
  effects := by
    refine
      ⟨_, _, _, _, _, effects_startStream session key, ?_, ?_, ?_⟩
    · intro effect member
      rcases List.mem_cons.mp member with rfl | isLatched
      · rfl
      · rcases List.mem_map.mp isLatched with ⟨event, -, rfl⟩
        rfl
    · intro effect member
      rcases List.mem_pair.mp member with rfl | rfl
      · rfl
      · rfl
    · intro effect member
      rw [List.mem_singleton.mp member]
      rfl
  player := by
    simp [Session.startStream, Session.replacePlayer, Session.spawn,
      Session.sendEvent, Session.perform, Session.performAll]
  activeGuard := by
    simp [Session.startStream, Session.replacePlayer, Session.spawn,
      Session.sendEvent, Session.perform, Session.performAll]

/-- The session made its moves and then started a stream. -/
def StartsAfter (session next : Session Db) : Prop :=
  ∃ middle key,
    Moves (fun _ _ => False) session middle ∧
      middle.sessionActive = session.sessionActive ∧
        next = middle.startStream key

theorem StartsAfter.starts
    {session next : Session Db} (after : StartsAfter session next) :
    Starts session next := by
  rcases after with ⟨middle, key, moves, -, rfl⟩
  have quiet := Quiet.of_moves moves
  have starts := starts_startStream middle key
  rcases quiet.effects with ⟨extra, middleEffects, extraQuiet⟩
  constructor
  · rcases starts.effects with
      ⟨before, between, after, rate, channels, effects, beforeQuiet,
        betweenQuiet, afterQuiet⟩
    refine
      ⟨extra ++ before, between, after, rate, channels, ?_, ?_,
        betweenQuiet, afterQuiet⟩
    · rw [effects, middleEffects, quiet.player, moves.streams_eq]
      simp
    · intro effect member
      rcases List.mem_append.mp member with isExtra | isBefore
      · exact extraQuiet effect isExtra
      · exact beforeQuiet effect isBefore
  · rw [starts.player, moves.streams_eq]
  · exact starts.activeGuard.trans quiet.activeGuard

/--
What a `SETUP` does unless it starts a stream, and before it does: tasks are
spawned and the fields of the stream are kept.
-/
structure Prepared (session next : Session Db) : Prop where
  effects :
    ∃ tasks : List Task,
      next.effects = session.effects ++ tasks.map .spawn
  player : next.player = session.player
  activeGuard : next.activeGuard = session.activeGuard
  streams : next.streams = session.streams
  sessionActive : next.sessionActive = session.sessionActive
  metadata : next.pendingMetadata = session.pendingMetadata
  artwork : next.pendingArtwork = session.pendingArtwork

namespace Prepared

variable
    {session middle next : Session Db}

theorem refl (session : Session Db) : Prepared session session where
  effects := ⟨[], (List.append_nil _).symm⟩
  player := rfl
  activeGuard := rfl
  streams := rfl
  sessionActive := rfl
  metadata := rfl
  artwork := rfl

theorem spawn
    (before : Prepared session middle) (task : Task) :
    Prepared session (middle.spawn task) where
  effects := by
    rcases before.effects with ⟨tasks, effects⟩
    refine ⟨tasks ++ [task], ?_⟩
    rw [List.map_append, ← List.append_assoc, ← effects]
    rfl
  player := before.player
  activeGuard := before.activeGuard
  streams := before.streams
  sessionActive := before.sessionActive
  metadata := before.metadata
  artwork := before.artwork

theorem trans
    (before : Prepared session middle) (after : Prepared middle next) :
    Prepared session next where
  effects := by
    rcases before.effects with ⟨first, firstEffects⟩
    rcases after.effects with ⟨second, secondEffects⟩
    refine ⟨first ++ second, ?_⟩
    rw [secondEffects, firstEffects, List.map_append, List.append_assoc]
  player := after.player.trans before.player
  activeGuard := after.activeGuard.trans before.activeGuard
  streams := after.streams.trans before.streams
  sessionActive := after.sessionActive.trans before.sessionActive
  metadata := after.metadata.trans before.metadata
  artwork := after.artwork.trans before.artwork

/-- So it is a sequence of moves. -/
theorem moves
    {pauses : Bool → Bool → Prop} (prepared : Prepared session next) :
    Moves pauses session next := by
  rcases prepared.effects with ⟨tasks, effects⟩
  have kept :
      Moves pauses session { next with effects := session.effects } :=
    Moves.update rfl prepared.player prepared.activeGuard
      prepared.streams prepared.sessionActive prepared.metadata
      prepared.artwork
  have spawned :
      Moves pauses session
        ({ next with effects := session.effects }.performAll
          (tasks.map .spawn)) := by
    apply kept.silentAll
    intro effect member
    rcases List.mem_map.mp member with ⟨task, -, rfl⟩
    rfl
  rw [Session.performAll, ← effects] at spawned
  exact spawned

end Prepared

/-- What a `SETUP` comes to, if it starts a stream and if it does not. -/
def Sets (starts : Bool) (session next : Session Db) : Prop :=
  if starts then
    ∃ middle key,
      Prepared session middle ∧ next = middle.startStream key
  else
    Prepared session next

theorem Sets.after
    {starts : Bool} {session middle next : Session Db}
    (before : Prepared session middle)
    (sets : Sets starts middle next) :
    Sets starts session next := by
  cases starts with
  | false => exact before.trans sets
  | true =>
      rcases sets with ⟨last, key, prepared, started⟩
      exact ⟨last, key, before.trans prepared, started⟩

theorem prepared_setupTiming
    (platform : Platform Db) (session : Session Db) (ports : Ports) :
    Prepared session (session.setupTiming platform ports).1 := by
  unfold Session.setupTiming
  split
  · exact .refl session
  · exact (Prepared.refl session).spawn _

/-- The data channel is one of a stream that can be played. -/
def startsData (platform : Platform Db) (session : Session Db)
    (port : Option UInt16) : Bool :=
  session.streamType == some typeBuffered &&
    (session.streamKey.bind audioDecryptor).isSome && port.isSome &&
    aacDecoder platform (aacParams session.audioFormat)

/-- The data channel of a stream is bound, or the stream is started. -/
theorem sets_setupData
    (platform : Platform Db) (session : Session Db)
    (port : Option UInt16) :
    Sets (startsData platform session port) session
      (session.setupData platform port).1 := by
  have reset : Prepared session { session with flushUntilSeq := 0 } :=
    ⟨⟨[], (List.append_nil _).symm⟩, rfl, rfl, rfl, rfl, rfl, rfl⟩
  unfold Session.setupData startsData
  split
  · next buffered =>
      rw [buffered, beq_self_eq_true, Bool.true_and]
      unfold Session.startBufferedAudio
      cases port with
      | none =>
          rw [Option.isSome_none, Bool.and_false, Bool.false_and]
          exact .refl session
      | some port =>
          cases decryptor : session.streamKey.bind audioDecryptor with
          | none => exact reset.spawn _
          | some key =>
              simp only [Option.isSome_some, Bool.true_and]
              cases decoder :
                  aacDecoder platform (aacParams session.audioFormat) with
              | false =>
                  rw [if_neg Bool.false_ne_true]
                  exact reset.spawn _
              | true =>
                  rw [if_pos rfl]
                  exact ⟨_, key, reset, rfl⟩
  · next other =>
      rw [beq_false_of_ne other]
      cases port with
      | none => exact .refl session
      | some port => exact (Prepared.refl session).spawn _

/-- A stream of phase 2 can be played. -/
def startsFirst (platform : Platform Db) (ports : Ports)
    (stream : Dictionary) : Bool :=
  (stream.get "type").bind Value.asUnsignedInteger ==
      some typeBuffered &&
    (((stream.get "shk").bind Value.asData).bind
      audioDecryptor).isSome &&
    ports.first.isSome && ports.second.isSome &&
    aacDecoder platform
      (aacParams
        ((stream.get "audioFormat").bind Value.asUnsignedInteger))

/-- Phase 2 binds the channels, or the stream it names is started. -/
theorem sets_setupStreams
    (platform : Platform Db) (session : Session Db) (ports : Ports)
    (streams : List Value) :
    Sets
      ((streams.head?.bind Value.asDictionary).any
        (startsFirst platform ports))
      session (session.setupStreams platform ports streams).1 := by
  unfold Session.setupStreams
  cases first : streams.head?.bind Value.asDictionary with
  | none => exact .refl session
  | some stream =>
      have captured : Prepared session (session.captureStream stream) :=
        ⟨⟨[], (List.append_nil _).symm⟩, rfl, rfl, rfl, rfl, rfl, rfl⟩
      rw [Option.any_some]
      cases control : ports.first with
      | none =>
          have refused : startsFirst platform ports stream = false := by
            simp [startsFirst, control]
          rw [refused]
          exact captured
      | some controlPort =>
          have data :=
            sets_setupData platform
              ((session.captureStream stream).spawn
                (.audioChannel "control"))
              ports.second
          have same :
              startsData platform
                  ((session.captureStream stream).spawn
                    (.audioChannel "control"))
                  ports.second =
                startsFirst platform ports stream := by
            simp [startsFirst, startsData, control,
              Session.captureStream, Session.spawn, Session.perform]
          rw [same] at data
          simp only
          generalize
            ((session.captureStream stream).spawn
              (.audioChannel "control")).setupData platform ports.second =
                result at data ⊢
          have sets := data.after (captured.spawn _)
          rcases result with ⟨final, error | dataPort⟩
          · exact sets
          · exact sets

/-- A `SETUP` starts the stream it names, or prepares the session. -/
theorem sets_handleSetup
    (platform : Platform Db) (session : Session Db) (ports : Ports)
    (body : Bytes) :
    Sets (startsStream platform ports body) session
      (session.handleSetup platform ports body).1 := by
  unfold Session.handleSetup
  cases plist : platform.readPlist body with
  | none =>
      have refused : startsStream platform ports body = false := by
        simp only [startsStream, firstStream, plist, Option.bind_none]
      rw [refused]
      exact .refl session
  | some request =>
      cases dictionary : request.asDictionary with
      | none =>
          have refused : startsStream platform ports body = false := by
            simp only [startsStream, firstStream, plist, dictionary,
              Option.bind_some, Option.bind_none]
          rw [refused]
          simp only [dictionary]
          exact .refl session
      | some dict =>
          cases array : (dict.get "streams").bind Value.asArray with
          | none =>
              have refused :
                  startsStream platform ports body = false := by
                simp only [startsStream, firstStream, plist, dictionary,
                  array, Option.bind_some, Option.bind_none]
              rw [refused]
              simp only [dictionary, array]
              exact prepared_setupTiming platform session ports
          | some streams =>
              have named :
                  startsStream platform ports body =
                    (streams.head?.bind Value.asDictionary).any
                      (startsFirst platform ports) := by
                simp only [startsStream, firstStream, plist, dictionary,
                  array, Option.bind_some]
                cases streams.head?.bind Value.asDictionary <;> rfl
              rw [named]
              simp only [dictionary, array]
              exact sets_setupStreams platform session ports streams

/-- A `SETUP` makes its moves, or is one that starts a stream. -/
theorem handleSetup_cases
    (pauses : Bool → Bool → Prop) (platform : Platform Db)
    (session : Session Db) (ports : Ports) (body : Bytes) :
    Moves pauses session (session.handleSetup platform ports body).1 ∨
      (startsStream platform ports body = true ∧
        StartsAfter session
          (session.handleSetup platform ports body).1) := by
  have sets := sets_handleSetup platform session ports body
  cases startsIt : startsStream platform ports body with
  | false =>
      rw [startsIt] at sets
      exact Or.inl (Prepared.moves sets)
  | true =>
      rw [startsIt] at sets
      rcases sets with ⟨middle, key, prepared, started⟩
      exact
        Or.inr
          ⟨rfl, middle, key, prepared.moves, prepared.sessionActive,
            started⟩

/-! ## Requests that are dispatched -/

theorem method_of_handleSetup
    {method : String}
    (setup : Operation.ofMethod method = some .handleSetup) :
    method = "SETUP" := by
  unfold Operation.ofMethod at setup
  split at setup <;> simp_all

theorem method_of_setRateAnchor
    {method : String}
    (rate : Operation.ofMethod method = some .setRateAnchor) :
    method = "SETRATEANCHORTIME" := by
  unfold Operation.ofMethod at rate
  split at rate <;> simp_all

/-- What a dispatched request leaves of the session. -/
def dispatched (platform : Platform Db) (session : Session Db)
    (ports : Ports) (request : Request) : Session Db :=
  match dispatchSession platform session ports request with
  | some (next, _) => next
  | none => session

/-- Only a rate anchor says that playback pauses or goes on. -/
def RequestPauses (platform : Platform Db) (session : Session Db)
    (request : Request) (active paused : Bool) : Prop :=
  request.method = "SETRATEANCHORTIME" ∧
    active = session.sessionActive ∧ Pauses platform request.body paused

/--
A dispatched request makes its moves, unless it is a `SETUP` that starts a
stream.
-/
theorem dispatched_moves
    (platform : Platform Db) (session : Session Db) (ports : Ports)
    (request : Request) :
    Moves (RequestPauses platform session request) session
        (dispatched platform session ports request) ∨
      (request.method = "SETUP" ∧
        startsStream platform ports request.body = true ∧
          StartsAfter session
            (dispatched platform session ports request)) := by
  unfold dispatched dispatchSession
  cases operation : Operation.ofMethod request.method with
  | none => exact Or.inl .refl
  | some op =>
      cases op with
      | handleSetup =>
          have setup :=
            handleSetup_cases (RequestPauses platform session request)
              platform session ports request.body
          simp only [Option.map_some, Operation.run]
          generalize
            session.handleSetup platform ports request.body = result
              at setup ⊢
          rcases setup with moves | ⟨startsIt, starts⟩
          · left
            rcases result with ⟨final, error | body⟩
            · exact moves
            · exact moves
          · refine
              Or.inr ⟨method_of_handleSetup operation, startsIt, ?_⟩
            rcases result with ⟨final, error | body⟩
            · exact starts
            · exact starts
      | getParameter => exact Or.inl .refl
      | setParameter =>
          exact Or.inl (moves_setParameter platform session _ _)
      | setRateAnchor =>
          have isRate := method_of_setRateAnchor operation
          left
          apply Moves.mono _ (moves_setRateAnchor platform session _)
          exact fun active paused isPaused => ⟨isRate, isPaused⟩
      | flush => exact Or.inl (moves_flush platform session _)
      | teardown => exact Or.inl (moves_endSession session)
      | ack => exact Or.inl .refl

/--
A dispatched request is quiet, unless it is a `SETUP` that starts a stream.
-/
theorem dispatched_cases
    (platform : Platform Db) (session : Session Db) (ports : Ports)
    (request : Request) :
    Quiet session (dispatched platform session ports request) ∨
      (request.method = "SETUP" ∧
        startsStream platform ports request.body = true ∧
          Starts session (dispatched platform session ports request)) := by
  rcases dispatched_moves platform session ports request with
    moves | ⟨isSetup, startsIt, after⟩
  · exact Or.inl (Quiet.of_moves moves)
  · exact Or.inr ⟨isSetup, startsIt, after.starts⟩

/-! ## The end of a session -/

/-- The player is dropped, then the guard, and nothing is left of either. -/
structure Ends (session next : Session Db) : Prop where
  effects :
    ∃ before,
      next.effects =
          session.effects ++
            (before ++
              (session.player.toList.map .closeSink ++
                session.activeGuard.toList.map .dropGuard)) ∧
        ∀ effect ∈ before, effect.isQuiet = true
  player : next.player = none
  activeGuard : next.activeGuard = none

theorem ends_drop (session : Session Db) :
    Ends session session.drop where
  effects := by
    have moves : Moves (fun _ _ => False) session session.endSession :=
      moves_endSession session
    have ended := Quiet.of_moves moves
    rcases ended.effects with ⟨extra, effects, quiet⟩
    refine ⟨extra ++ session.endSession.tasks.map .abort, ?_, ?_⟩
    · simp only [Session.drop, Session.performAll]
      rw [effects, ended.player, ended.activeGuard]
      simp
    · intro effect member
      rcases List.mem_append.mp member with isExtra | isAbort
      · exact quiet effect isExtra
      · rcases List.mem_map.mp isAbort with ⟨task, -, rfl⟩
        rfl
  player := rfl
  activeGuard := rfl

end OpenAirplay2.Control
