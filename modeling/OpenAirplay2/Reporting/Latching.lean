import OpenAirplay2.Lib.Spans
import OpenAirplay2.Reporting.Connection
import OpenAirplay2.Takeover.Sinks

/-!
# What is said of a track before a session

A sender describes a track, by its metadata and its artwork, whenever it
likes.  The host is told inside a session only: what is said before one is
kept, the latest of each kind, and told as the session starts.

The requests of a connection and the events it tells are cut into spans in
the same way, the ones by the requests that start and end a stream, the others
by the events that say so.  Span by span, the events of a session follow from
the requests.
-/

namespace OpenAirplay2.Reporting

open OpenAirplay2.Control
open OpenAirplay2.Control.Session
open OpenAirplay2.Lib
open OpenAirplay2.Lib.Str
open OpenAirplay2.Pairing (Bytes)
open OpenAirplay2.Takeover (streamPlatform streamSetup)

variable {Db : Type}

/-! ## Statements -/

/-- What a statement is about. -/
inductive Kind where
  | metadata
  | artwork
deriving DecidableEq, Repr

def Kind.has : Kind → Event Db → Bool
  | .metadata, .metadata _ _ _ => true
  | .artwork, .artwork _ _ => true
  | _, _ => false

/-- Where a session keeps a statement of the kind. -/
def Kind.latch : Kind → Session Db → Option (Event Db)
  | .metadata, session => session.pendingMetadata
  | .artwork, session => session.pendingArtwork

def isStatement (event : Event Db) : Bool :=
  Kind.metadata.has event || Kind.artwork.has event

def isStarted : Event Db → Bool
  | .sessionStarted _ _ _ => true
  | _ => false

def isEnded : Event Db → Bool
  | .sessionEnded => true
  | _ => false

theorem isStatement_of_has
    {kind : Kind} {event : Event Db}
    (has : kind.has event = true) :
    isStatement event = true := by
  cases kind with
  | metadata => rw [isStatement, has, Bool.true_or]
  | artwork => rw [isStatement, has, Bool.or_true]

/-- A statement neither starts a session nor ends one. -/
theorem plain_of_isStatement
    {event : Event Db}
    (statement : isStatement event = true) :
    isStarted event = false ∧ isEnded event = false := by
  cases event with
  | sessionStarted => cases statement
  | sessionEnded => cases statement
  | _ => exact ⟨rfl, rfl⟩

/-! ## Requests -/

/-- A request to the session, and the ports that can be bound for it. -/
abbrev Asked := Request × Ports

/-- The statement of a parameter, if it is accepted. -/
def parameterStatement (contentType : Option String) (body : Bytes) :
    Option (Event Db) :=
  match contentType.map mediaType with
  | none => none
  | some media =>
      if eqIgnoreAsciiCase media dmapContentType then
        (Dmap.parse body).map fun track =>
          .metadata track.title track.artist track.album
      else if
          (getTo media 6).any fun start =>
            eqIgnoreAsciiCase start "image/" then
        some (.artwork media body)
      else
        none

/-- The statement that a request makes. -/
def statement (asked : Asked) : Option (Event Db) :=
  match Operation.ofMethod asked.1.method with
  | some .setParameter =>
      parameterStatement (asked.1.headers.get "Content-Type")
        asked.1.body
  | _ => none

/-- The `SETUP` of a stream that is started. -/
def starts (platform : Platform Db) (asked : Asked) : Bool :=
  match Operation.ofMethod asked.1.method with
  | some .handleSetup => startsStream platform asked.2 asked.1.body
  | _ => false

/-- A `TEARDOWN`. -/
def ends (asked : Asked) : Bool :=
  Operation.ofMethod asked.1.method == some .teardown

/-- A session that is asked one request after the other. -/
def served (platform : Platform Db) (session : Session Db)
    (requests : List Asked) : Session Db :=
  requests.foldl
    (fun session asked => dispatched platform session asked.2 asked.1)
    session

theorem isStatement_of_statement
    {asked : Asked} {event : Event Db}
    (made : statement asked = some event) :
    isStatement event = true := by
  unfold statement parameterStatement at made
  split at made
  · split at made
    · cases made
    · split at made
      · rw [Option.map_eq_some_iff] at made
        rcases made with ⟨track, -, rfl⟩
        rfl
      · split at made
        · cases made
          rfl
        · cases made
  · cases made

/-! ## What a request comes to -/

theorem tells_prepared
    {session next : Session Db} (prepared : Prepared session next) :
    tells next.effects = tells session.effects := by
  rcases prepared.effects with ⟨tasks, effects⟩
  rw [effects, tells_append, tells_map_eq_nil fun _ => rfl,
    List.append_nil]

/-- Nothing is told of a session or a track, and nothing is kept of one. -/
structure Aside (session next : Session Db) : Prop where
  effects :
    ∃ extra,
      tells next.effects = tells session.effects ++ extra ∧
        ∀ event ∈ extra,
          isStarted event = false ∧ isEnded event = false ∧
            isStatement event = false
  active : next.sessionActive = session.sessionActive
  latch : ∀ kind : Kind, kind.latch next = kind.latch session

namespace Aside

variable
    {session middle next : Session Db}

/-- Nothing is told at all. -/
theorem of_tells
    (effects : tells next.effects = tells session.effects)
    (active : next.sessionActive = session.sessionActive)
    (latch : ∀ kind : Kind, kind.latch next = kind.latch session) :
    Aside session next where
  effects := by
    refine ⟨[], ?_, fun _ member => by cases member⟩
    rw [effects, List.append_nil]
  active := active
  latch := latch

theorem refl (session : Session Db) : Aside session session :=
  of_tells rfl rfl fun _ => rfl

theorem trans
    (before : Aside session middle)
    (after : Aside middle next) :
    Aside session next where
  effects := by
    rcases before.effects with ⟨first, firstEffects, firstAside⟩
    rcases after.effects with ⟨second, secondEffects, secondAside⟩
    refine ⟨first ++ second, ?_, ?_⟩
    · rw [secondEffects, firstEffects, List.append_assoc]
    · intro event member
      rcases List.mem_append.mp member with isFirst | isSecond
      · exact firstAside event isFirst
      · exact secondAside event isSecond
  active := after.active.trans before.active
  latch := fun kind => (after.latch kind).trans (before.latch kind)

/-- One event that is none of these is told. -/
theorem sendEvent
    {event : Event Db}
    (plain :
      isStarted event = false ∧ isEnded event = false ∧
        isStatement event = false) :
    Aside session (session.sendEvent event) where
  effects := by
    refine ⟨[event], tells_append session.effects [.event event], ?_⟩
    intro other member
    rw [List.mem_singleton.mp member]
    exact plain
  active := rfl
  latch := fun kind => by cases kind <;> rfl

/-- Effects that tell nothing. -/
theorem performAll
    {effects : List (Effect Db)} (nothing : tells effects = []) :
    Aside session (session.performAll effects) := by
  apply of_tells
  · show tells (session.effects ++ effects) = tells session.effects
    rw [tells_append, nothing, List.append_nil]
  · rfl
  · intro kind
    cases kind <;> rfl

theorem of_prepared (prepared : Prepared session next) :
    Aside session next := by
  apply of_tells (tells_prepared prepared) prepared.sessionActive
  intro kind
  cases kind with
  | metadata => exact prepared.metadata
  | artwork => exact prepared.artwork

end Aside

section Asides

variable
    (platform : Platform Db)
    (session : Session Db)

/-- A change of the fields that are none of these. -/
theorem aside_flushed (boundary : Nat) :
    Aside session { session with flushUntilSeq := boundary } :=
  .of_tells rfl rfl fun kind => by cases kind <;> rfl

theorem aside_setProgress (value : String) :
    Aside session (session.setProgress value) := by
  unfold setProgress
  split
  · next start _ ends _ =>
      have anchored :
          Aside session
            ({ session with track := some ⟨start, ends⟩ }.perform
              (.anchor (some ⟨start, ends⟩))) := by
        apply Aside.of_tells
        · exact
            (tells_append session.effects [.anchor _]).trans
              (List.append_nil _)
        · rfl
        · intro kind
          cases kind <;> rfl
      simp only
      split
      · exact anchored.trans (.sendEvent ⟨rfl, rfl, rfl⟩)
      · exact anchored
  · exact .refl session

theorem aside_setTextLine (line : String) :
    Aside session (session.setTextLine platform line) := by
  unfold setTextLine
  split
  · split
    · next db _ =>
        have stored : Aside session { session with volume := db } :=
          .of_tells rfl rfl fun kind => by cases kind <;> rfl
        exact stored.trans (.sendEvent ⟨rfl, rfl, rfl⟩)
    · exact .refl session
  · split
    · exact aside_setProgress session _
    · exact .refl session

theorem aside_setTextParameters (body : Bytes) :
    Aside session (session.setTextParameters platform body) := by
  unfold setTextParameters
  induction lines (fromUtf8Lossy body) generalizing session with
  | nil => exact .refl session
  | cons line rest induction =>
      rw [List.foldl_cons]
      exact (aside_setTextLine platform session line).trans (induction _)

theorem aside_setRateAnchor (body : Bytes) :
    Aside session (session.setRateAnchor platform body) := by
  unfold setRateAnchor
  split
  · exact .refl session
  · next rate anchor parsed =>
      have gated :
          Aside session
            (session.performAll
              (session.playerControl.toList.map
                fun stream => .setPaused stream (rate == 0))) :=
        .performAll (tells_map_eq_nil (fun _ => rfl) _)
      exact gated.trans (.sendEvent ⟨rfl, rfl, rfl⟩)

theorem aside_flush (body : Bytes) :
    Aside session (session.flush platform body) := by
  unfold flush
  have nothing :
      tells
          (session.playerControl.toList.map
            fun stream =>
              .flush stream (parseFlushUntilSeq platform body)) =
        ([] : List (Event Db)) :=
    tells_map_eq_nil (fun _ => rfl) _
  exact
    ((aside_flushed session _).trans (.performAll nothing)).trans
      (.sendEvent ⟨rfl, rfl, rfl⟩)

/-- A parameter is a statement, or is none and is taken aside. -/
theorem setParameter_cases (contentType : Option String) (body : Bytes) :
    (∃ event,
        parameterStatement contentType body = some event ∧
          session.setParameter platform contentType body =
            session.sendSessionEvent event) ∨
      (parameterStatement contentType body = (none : Option (Event Db)) ∧
        Aside session
          (session.setParameter platform contentType body)) := by
  unfold setParameter parameterStatement
  cases contentType.map mediaType with
  | none =>
      exact Or.inr ⟨rfl, aside_setTextParameters platform session body⟩
  | some media =>
      simp only
      split
      · unfold setMetadata
        cases Dmap.parse body with
        | none => exact Or.inr ⟨rfl, .refl session⟩
        | some track => exact Or.inl ⟨_, rfl, rfl⟩
      · split
        · exact Or.inl ⟨_, rfl, rfl⟩
        · exact
            Or.inr ⟨rfl, aside_setTextParameters platform session body⟩

end Asides

/-- The four things that a request can come to. -/
inductive Turn (platform : Platform Db) (asked : Asked)
    (session next : Session Db) : Prop where
  | started (middle : Session Db) (key : Bytes)
      (opens : starts platform asked = true)
      (silent : (statement asked : Option (Event Db)) = none)
      (prepared : Prepared session middle)
      (same : next = middle.startStream key)
  | ended
      (opens : starts platform asked = false)
      (closes : ends asked = true)
      (silent : (statement asked : Option (Event Db)) = none)
      (same : next = session.endSession)
  | stated (event : Event Db)
      (opens : starts platform asked = false)
      (closes : ends asked = false)
      (made : statement asked = some event)
      (same : next = session.sendSessionEvent event)
  | aside
      (opens : starts platform asked = false)
      (closes : ends asked = false)
      (silent : (statement asked : Option (Event Db)) = none)
      (aside : Aside session next)

/-- Only three of the operations can come to something else. -/
theorem Turn.of_aside
    {platform : Platform Db}
    {asked : Asked}
    {session next : Session Db}
    {operation : Option Operation}
    (isOperation : Operation.ofMethod asked.1.method = operation)
    (other :
      operation ≠ some .handleSetup ∧ operation ≠ some .setParameter ∧
        operation ≠ some .teardown)
    (aside : Aside session next) :
    Turn platform asked session next := by
  rcases other with ⟨setup, parameter, teardown⟩
  rw [← isOperation] at setup parameter teardown
  apply Turn.aside _ _ _ aside
  · unfold starts
    split
    · next isSetup => exact absurd isSetup setup
    · rfl
  · exact beq_false_of_ne teardown
  · unfold statement
    split
    · next isParameter => exact absurd isParameter parameter
    · rfl

theorem turn_dispatched
    (platform : Platform Db)
    (session : Session Db)
    (asked : Asked) :
    Turn platform asked session
      (dispatched platform session asked.2 asked.1) := by
  unfold dispatched dispatchSession
  cases operation : Operation.ofMethod asked.1.method with
  | none => exact .of_aside operation (by decide) (.refl session)
  | some op =>
      cases op with
      | handleSetup =>
          have opens :
              starts platform asked =
                startsStream platform asked.2 asked.1.body := by
            simp only [starts, operation]
          have closes : ends asked = false := by
            simp only [ends, operation]
            rfl
          have silent : (statement asked : Option (Event Db)) = none := by
            simp only [statement, operation]
          have sets :=
            sets_handleSetup platform session asked.2 asked.1.body
          rw [← opens] at sets
          simp only [Option.map_some, Operation.run]
          generalize
            session.handleSetup platform asked.2 asked.1.body = result
              at sets ⊢
          have turn : Turn platform asked session result.1 := by
            cases startsIt : starts platform asked with
            | true =>
                rw [startsIt] at sets
                rcases sets with ⟨middle, key, prepared, same⟩
                exact .started middle key startsIt silent prepared same
            | false =>
                rw [startsIt] at sets
                exact .aside startsIt closes silent (.of_prepared sets)
          rcases result with ⟨final, error | body⟩
          · exact turn
          · exact turn
      | setParameter =>
          have opens : starts platform asked = false := by
            simp only [starts, operation]
          have closes : ends asked = false := by
            simp only [ends, operation]
            rfl
          rcases setParameter_cases platform session
              (asked.1.headers.get "Content-Type") asked.1.body with
            ⟨event, made, same⟩ | ⟨silent, aside⟩
          · apply Turn.stated event opens closes _ same
            simp only [statement, operation]
            exact made
          · apply Turn.aside opens closes _ aside
            simp only [statement, operation]
            exact silent
      | teardown =>
          apply Turn.ended
          · simp only [starts, operation]
          · simp only [ends, operation]
            rfl
          · simp only [statement, operation]
          · rfl
      | getParameter =>
          exact .of_aside operation (by decide) (.refl session)
      | setRateAnchor =>
          apply Turn.of_aside operation (by decide)
          exact aside_setRateAnchor platform session asked.1.body
      | flush =>
          apply Turn.of_aside operation (by decide)
          exact aside_flush platform session asked.1.body
      | ack => exact .of_aside operation (by decide) (.refl session)

/-! ## Span by span -/

/-- The statements that requests make, in order. -/
def pushed (asked : List Asked) : List (Event Db) :=
  asked.filterMap statement

/-- The latest statement of a kind, if there is one. -/
def latest (kind : Kind) (asked : List Asked) : Option (Event Db) :=
  ((pushed asked).filter kind.has).getLast?

theorem pushed_concat (before : List Asked) (asked : Asked) :
    (pushed (before ++ [asked]) : List (Event Db)) =
      pushed before ++ (statement asked).toList := by
  rw [pushed, List.filterMap_append]
  cases made : (statement asked : Option (Event Db)) with
  | none => rw [List.filterMap_cons_none made]; rfl
  | some event => rw [List.filterMap_cons_some made]; rfl

theorem latest_silent
    (kind : Kind)
    (before : List Asked)
    {asked : Asked}
    (silent : (statement asked : Option (Event Db)) = none) :
    (latest kind (before ++ [asked]) : Option (Event Db)) =
      latest kind before := by
  rw [latest, pushed_concat, silent, Option.toList_none,
    List.append_nil]
  rfl

theorem latest_stated
    (kind : Kind)
    (before : List Asked)
    {asked : Asked}
    {event : Event Db}
    (made : statement asked = some event) :
    latest kind (before ++ [asked]) =
      if kind.has event then some event else latest kind before := by
  rw [latest, pushed_concat, made, Option.toList_some,
    List.filter_append]
  split
  · next has =>
      rw [List.filter_cons_of_pos has, List.filter_nil]
      exact List.getLast?_concat
  · next other =>
      rw [List.filter_cons_of_neg other, List.filter_nil,
        List.append_nil]
      rfl

/-- What is kept for a session is told first, and then what is said in it. -/
structure Told (asked : Span Asked) (told : Span (Event Db)) : Prop where
  opener : isStarted told.opener = true
  before : ∀ event ∈ told.before, isStatement event = false
  within :
    ∃ rest,
      told.within =
          (latest .metadata asked.before).toList ++
            (latest .artwork asked.before).toList ++ rest ∧
        rest.filter isStatement = pushed asked.within

theorem Told.add
    {asked : Span Asked}
    {told : Span (Event Db)}
    (isTold : Told asked told)
    (one : Asked)
    {extra : List (Event Db)}
    (same : extra.filter isStatement = (statement one).toList) :
    Told (asked.add [one]) (told.add extra) where
  opener := isTold.opener
  before := isTold.before
  within := by
    rcases isTold.within with ⟨rest, within, stated⟩
    refine ⟨rest ++ extra, ?_, ?_⟩
    · show told.within ++ extra = _
      rw [within, List.append_assoc]
      rfl
    · show _ = pushed (asked.within ++ [one])
      rw [List.filter_append, stated, same, pushed_concat]

/-- The spans so far, as the session has them. -/
inductive Matches : Spans Asked → Spans (Event Db) → Session Db → Prop where
  | outside {past : List (Span Asked)} {pastTold : List (Span (Event Db))}
      {since : List Asked} {told : List (Event Db)}
      {session : Session Db}
      (isTold : List.Forall₂ Told past pastTold)
      (silent : ∀ event ∈ told, isStatement event = false)
      (active : session.sessionActive = false)
      (latched : ∀ kind : Kind, kind.latch session = latest kind since) :
      Matches (.outside past since) (.outside pastTold told) session
  | inside {past : List (Span Asked)} {pastTold : List (Span (Event Db))}
      {current : Span Asked} {told : Span (Event Db)}
      {session : Session Db}
      (isTold : List.Forall₂ Told past pastTold)
      (isCurrent : Told current told)
      (active : session.sessionActive = true)
      (empty : ∀ kind : Kind, kind.latch session = none) :
      Matches (.inside past current) (.inside pastTold told) session

theorem has_of_latest
    {kind : Kind}
    {asked : List Asked}
    {event : Event Db}
    (last : latest kind asked = some event) :
    kind.has event = true :=
  (List.mem_filter.mp (List.mem_of_getLast? last)).2

namespace Matches

variable
    {asked : Spans Asked}
    {told : Spans (Event Db)}
    {session next : Session Db}

theorem all (matched : Matches asked told session) :
    List.Forall₂ Told asked.all told.all := by
  cases matched with
  | outside isTold => exact isTold
  | inside isTold isCurrent =>
      exact List.rel_append isTold (.cons isCurrent .nil)

theorem since (matched : Matches asked told session) :
    ∀ event ∈ told.since, isStatement event = false := by
  cases matched with
  | outside _ silent => exact silent
  | inside =>
      intro event member
      cases member

/-- What is kept is the latest of what was said since the last session. -/
theorem latch (matched : Matches asked told session) (kind : Kind) :
    kind.latch session = latest kind asked.since := by
  cases matched with
  | outside _ _ _ latched => exact latched kind
  | inside _ _ _ empty => exact empty kind

end Matches

section Step

variable
    {platform : Platform Db}
    {asked : Spans Asked}
    {told : Spans (Event Db)}
    {session next : Session Db}
    {one : Asked}

/-- The next state of the spans, for what was told of a request. -/
def Proceeds (platform : Platform Db) (asked : Spans Asked)
    (told : Spans (Event Db)) (one : Asked)
    (session next : Session Db) : Prop :=
  ∃ extra,
    tells next.effects = tells session.effects ++ extra ∧
      Matches (asked.push (starts platform) ends one)
        (extra.foldl (Spans.push isStarted isEnded) told) next

theorem proceeds_started
    (matched : Matches asked told session)
    (opens : starts platform one = true)
    {middle : Session Db}
    (prepared : Prepared session middle)
    (key : Bytes) :
    Proceeds platform asked told one session
      (middle.startStream key) := by
  have aside := Aside.of_prepared prepared
  have latched : ∀ kind : Kind,
      kind.latch middle = latest kind asked.since :=
    fun kind => (aside.latch kind).trans (matched.latch kind)
  have metadata : middle.pendingMetadata = latest .metadata asked.since :=
    latched .metadata
  have artwork : middle.pendingArtwork = latest .artwork asked.since :=
    latched .artwork
  rcases tells_startEffects middle key with
    ⟨rate, channels, peer, started⟩
  rw [metadata, artwork] at started
  have events :
      tells (middle.startStream key).effects =
        tells session.effects ++ tells (startEffects middle key) := by
    rw [effects_startStream, tells_append, tells_prepared prepared]
  refine ⟨_, events, ?_⟩
  have plain :
      ∀ event : Event Db,
        event ∈
            (latest .metadata asked.since).toList ++
              (latest .artwork asked.since).toList →
          isStarted event = false ∧ isEnded event = false := by
    intro event member
    apply plain_of_isStatement
    simp only [List.mem_append, Option.mem_toList] at member
    rcases member with last | last
    · exact isStatement_of_has (has_of_latest last)
    · exact isStatement_of_has (has_of_latest last)
  have opener :
      isStarted (.sessionStarted rate channels peer : Event Db) = true :=
    rfl
  rw [Spans.push_opener opens, started, List.foldl_cons,
    Spans.push_opener opener, Spans.foldl_push_inside plain]
  apply Matches.inside matched.all
  · refine ⟨rfl, matched.since, [], ?_, rfl⟩
    rw [List.append_nil]
    rfl
  · rfl
  · intro kind
    cases kind <;> rfl

theorem proceeds_ended
    (matched : Matches asked told session)
    (opens : starts platform one = false)
    (closes : ends one = true)
    (silent : (statement one : Option (Event Db)) = none) :
    Proceeds platform asked told one session session.endSession := by
  cases matched with
  | @outside _ _ since told _ isTold quiet inactive latched =>
      have off : ¬ session.sessionActive = true := by
        rw [inactive]
        exact Bool.false_ne_true
      have same : session.endSession = session := if_neg off
      rw [same]
      refine ⟨[], (List.append_nil _).symm, ?_⟩
      · rw [Spans.push_outside opens]
        refine .outside isTold quiet inactive ?_
        intro kind
        rw [latest_silent kind since silent]
        exact latched kind
  | @inside _ _ current told _ isTold isCurrent active empty =>
      refine ⟨[.sessionEnded], ?_, ?_⟩
      · rw [endSession, if_pos active]
        exact tells_append session.effects [.event .sessionEnded]
      · rw [Spans.push_closer opens closes, endSession, if_pos active,
          List.foldl_cons, List.foldl_nil, Spans.push_closer rfl rfl]
        apply Matches.outside
        · exact List.rel_append isTold (.cons isCurrent .nil)
        · intro event member
          rw [List.mem_singleton.mp member]
          rfl
        · rfl
        · intro kind
          rw [← List.nil_append [one], latest_silent kind [] silent]
          have kept := empty kind
          cases kind with
          | metadata => exact kept
          | artwork => exact kept

/-- Outside a session, a statement takes the place of the one kept. -/
theorem kept_sendSessionEvent
    (inactive : session.sessionActive = false)
    {event : Event Db}
    (isStated : isStatement event = true) :
    (session.sendSessionEvent event).effects = session.effects ∧
      (session.sendSessionEvent event).sessionActive = false ∧
        ∀ kind : Kind,
          kind.latch (session.sendSessionEvent event) =
            if kind.has event then some event else kind.latch session := by
  have off : ¬ session.sessionActive = true := by
    rw [inactive]
    exact Bool.false_ne_true
  unfold sendSessionEvent
  rw [if_neg off]
  cases event with
  | metadata =>
      refine ⟨rfl, inactive, ?_⟩
      intro kind
      cases kind <;> rfl
  | artwork =>
      refine ⟨rfl, inactive, ?_⟩
      intro kind
      cases kind <;> rfl
  | _ => cases isStated

theorem proceeds_stated
    (matched : Matches asked told session)
    (opens : starts platform one = false)
    (closes : ends one = false)
    {event : Event Db}
    (made : statement one = some event) :
    Proceeds platform asked told one session
      (session.sendSessionEvent event) := by
  have isStated := isStatement_of_statement made
  have plain := plain_of_isStatement isStated
  cases matched with
  | @outside _ _ since told _ isTold quiet inactive latched =>
      rcases kept_sendSessionEvent inactive isStated with
        ⟨effects, still, kept⟩
      refine ⟨[], ?_, ?_⟩
      · rw [effects, List.append_nil]
      · rw [Spans.push_outside opens, List.foldl_nil]
        refine .outside isTold quiet still ?_
        intro kind
        rw [latest_stated kind since made, kept kind, latched kind]
  | @inside _ _ current told _ isTold isCurrent active empty =>
      have sent : session.sendSessionEvent event = session.sendEvent event :=
        if_pos active
      rw [sent]
      refine ⟨[event], tells_append session.effects [.event event], ?_⟩
      · rw [Spans.push_inside opens closes, List.foldl_cons,
          List.foldl_nil, Spans.push_inside plain.1 plain.2]
        refine .inside isTold (isCurrent.add one ?_) active ?_
        · rw [made, List.filter_cons_of_pos isStated]
          rfl
        · intro kind
          have kept := empty kind
          cases kind with
          | metadata => exact kept
          | artwork => exact kept

theorem proceeds_aside
    (matched : Matches asked told session)
    (opens : starts platform one = false)
    (closes : ends one = false)
    (silent : (statement one : Option (Event Db)) = none)
    (aside : Aside session next) :
    Proceeds platform asked told one session next := by
  rcases aside.effects with ⟨extra, effects, plain⟩
  refine ⟨extra, effects, ?_⟩
  cases matched with
  | @outside _ _ since told _ isTold quiet inactive latched =>
      rw [Spans.push_outside opens,
        Spans.foldl_push_outside fun event member =>
          (plain event member).1]
      refine .outside isTold ?_ (aside.active.trans inactive) ?_
      · intro event member
        rcases List.mem_append.mp member with before | isExtra
        · exact quiet event before
        · exact (plain event isExtra).2.2
      · intro kind
        rw [latest_silent kind since silent, aside.latch kind]
        exact latched kind
  | @inside _ _ current told _ isTold isCurrent active empty =>
      rw [Spans.push_inside opens closes,
        Spans.foldl_push_inside fun event member =>
          ⟨(plain event member).1, (plain event member).2.1⟩]
      refine
        .inside isTold (isCurrent.add one ?_)
          (aside.active.trans active) ?_
      · rw [silent, Option.toList_none, List.filter_eq_nil_iff]
        intro event member
        rw [(plain event member).2.2]
        exact Bool.false_ne_true
      · intro kind
        rw [aside.latch kind]
        exact empty kind

/-- One request. -/
theorem proceeds_turn
    (matched : Matches asked told session)
    (turn : Turn platform one session next) :
    Proceeds platform asked told one session next := by
  cases turn with
  | started middle key opens _ prepared same =>
      rw [same]
      exact proceeds_started matched opens prepared key
  | ended opens closes silent same =>
      rw [same]
      exact proceeds_ended matched opens closes silent
  | stated event opens closes made same =>
      rw [same]
      exact proceeds_stated matched opens closes made
  | aside opens closes silent aside =>
      exact proceeds_aside matched opens closes silent aside

end Step

/-- What the requests so far come to, in spans. -/
def askedSpans (platform : Platform Db) (requests : List Asked) :
    Spans Asked :=
  Spans.cut (starts platform) ends requests

/-- What was told so far, in spans. -/
def toldSpans (session : Session Db) : Spans (Event Db) :=
  Spans.cut isStarted isEnded (tells session.effects)

/-- All requests of a connection. -/
theorem matches_served
    (platform : Platform Db)
    (localIp peerIp : IpAddr)
    (requests : List Asked) :
    Matches (askedSpans platform requests)
      (toldSpans
        (served platform (Session.new platform localIp peerIp) requests))
      (served platform (Session.new platform localIp peerIp)
        requests) := by
  induction requests using List.reverseRecOn with
  | nil =>
      apply Matches.outside .nil
      · intro event member
        cases member
      · rfl
      · intro kind
        cases kind <;> rfl
  | append_singleton requests one induction =>
      rcases proceeds_turn induction
          (turn_dispatched platform _ one) with
        ⟨extra, effects, matched⟩
      have last :
          served platform (Session.new platform localIp peerIp)
              (requests ++ [one]) =
            dispatched platform
              (served platform (Session.new platform localIp peerIp)
                requests)
              one.2 one.1 :=
        List.foldl_concat _ _ _ _
      rw [last, askedSpans, Spans.cut_concat, toldSpans, effects,
        Spans.cut_append]
      exact matched

/-! ## What a session is told of a track -/

/--
What is told in a session: directly after its start, the latest statement of
each kind that was made since the session before; and of each kind, that
statement and the statements made during the session, in order.
-/
structure Delivered (asked : Span Asked) (told : Span (Event Db)) :
    Prop where
  started :
    ∃ rate channels peer,
      told.opener = .sessionStarted rate channels peer
  directly :
    (latest .metadata asked.before).toList ++
        (latest .artwork asked.before).toList <+:
      told.within
  within :
    ∀ kind : Kind,
      told.within.filter kind.has =
        (latest kind asked.before).toList ++
          (pushed asked.within).filter kind.has
  before : ∀ event ∈ told.before, isStatement event = false

/-- A latest statement is of its own kind only. -/
theorem filter_latest_toList (kind other : Kind) (asked : List Asked) :
    ((latest other asked).toList : List (Event Db)).filter kind.has =
      if kind = other then (latest other asked).toList else [] := by
  cases last : (latest other asked : Option (Event Db)) with
  | none => rw [Option.toList_none, List.filter_nil, ite_self]
  | some event =>
      have has := has_of_latest last
      rw [Option.toList_some]
      cases event with
      | metadata =>
          cases other with
          | metadata => cases kind <;> rfl
          | artwork => cases has
      | artwork =>
          cases other with
          | metadata => cases has
          | artwork => cases kind <;> rfl
      | _ => cases other <;> cases has

/-- So one of the latest statements is of the kind. -/
theorem filter_latest (kind : Kind) (asked : List Asked) :
    ((latest .metadata asked).toList ++
          (latest .artwork asked).toList).filter kind.has =
      ((latest kind asked).toList : List (Event Db)) := by
  rw [List.filter_append, filter_latest_toList, filter_latest_toList]
  cases kind with
  | metadata => exact List.append_nil _
  | artwork => rfl

theorem Told.delivered
    {asked : Span Asked}
    {told : Span (Event Db)}
    (isTold : Told asked told) :
    Delivered asked told where
  started := by
    have opener := isTold.opener
    cases event : told.opener with
    | sessionStarted rate channels peer => exact ⟨rate, channels, peer, rfl⟩
    | _ =>
        rw [event] at opener
        cases opener
  directly := by
    rcases isTold.within with ⟨rest, within, -⟩
    rw [within]
    exact List.prefix_append _ _
  within := by
    intro kind
    rcases isTold.within with ⟨rest, within, stated⟩
    have narrow :
        rest.filter kind.has = (pushed asked.within).filter kind.has := by
      rw [← stated, List.filter_filter]
      apply List.filter_congr
      intro event member
      cases has : kind.has event with
      | false => rfl
      | true => rw [isStatement_of_has has, Bool.and_self]
    rw [within, List.filter_append, filter_latest, narrow]
  before := isTold.before

theorem pushed_append (first second : List Asked) :
    (pushed (first ++ second) : List (Event Db)) =
      pushed first ++ pushed second :=
  List.filterMap_append

/-- Where nothing is stated there is nothing of a kind. -/
theorem filter_has_eq_nil
    {events : List (Event Db)}
    (silent : ∀ event ∈ events, isStatement event = false)
    (kind : Kind) :
    events.filter kind.has = [] := by
  rw [List.filter_eq_nil_iff]
  intro event member has
  have stated := isStatement_of_has has
  rw [silent event member] at stated
  cases stated

/-- What is delivered of a kind was stated, in this order. -/
theorem Delivered.sublist
    {asked : Span Asked}
    {told : Span (Event Db)}
    (delivered : Delivered asked told)
    (kind : Kind) :
    (told.items.filter kind.has).Sublist
      ((pushed asked.items).filter kind.has) := by
  have opener : kind.has told.opener = false := by
    rcases delivered.started with ⟨rate, channels, peer, opener⟩
    rw [opener]
    cases kind <;> rfl
  have kept :
      ((latest kind asked.before).toList : List (Event Db)).Sublist
        ((pushed asked.before).filter kind.has) := by
    cases last : (latest kind asked.before : Option (Event Db)) with
    | none => exact List.nil_sublist _
    | some event =>
        exact List.singleton_sublist.mpr (List.mem_of_getLast? last)
  rw [Span.items, Span.items, List.filter_append,
    filter_has_eq_nil delivered.before, List.nil_append,
    List.filter_cons_of_neg (by rw [opener]; exact Bool.false_ne_true),
    delivered.within, ← List.singleton_append, pushed_append,
    pushed_append, List.filter_append, List.filter_append]
  exact kept.append (List.sublist_append_right _ _)

theorem sublist_of_delivered
    {asked : List (Span Asked)}
    {told : List (Span (Event Db))}
    (delivered : List.Forall₂ Delivered asked told)
    (kind : Kind) :
    ((told.flatMap Span.items).filter kind.has).Sublist
      ((pushed (asked.flatMap Span.items)).filter kind.has) := by
  induction delivered with
  | nil => exact List.Sublist.refl _
  | cons first _ induction =>
      rw [List.flatMap_cons, List.flatMap_cons, pushed_append,
        List.filter_append, List.filter_append]
      exact (first.sublist kind).append induction

/--
For every sequence of requests on a connection: the sessions it starts are
told what was stated for them and in them, nothing of a track is told outside
a session, and nothing is told that was not stated, or twice.
-/
theorem statements_delivered
    (platform : Platform Db)
    (localIp peerIp : IpAddr)
    (requests : List Asked) :
    let session :=
      served platform (Session.new platform localIp peerIp) requests
    List.Forall₂ Delivered (askedSpans platform requests).all
        (toldSpans session).all ∧
      (∀ event ∈ (toldSpans session).since, isStatement event = false) ∧
      ∀ kind : Kind,
        ((tells session.effects).filter kind.has).Sublist
          ((pushed requests).filter kind.has) := by
  intro session
  have matched := matches_served platform localIp peerIp requests
  have delivered := matched.all.imp fun _ _ isTold => isTold.delivered
  refine ⟨delivered, matched.since, ?_⟩
  intro kind
  have events : (toldSpans session).items = tells session.effects :=
    Spans.items_cut isStarted isEnded _
  have asked : (askedSpans platform requests).items = requests :=
    Spans.items_cut (starts platform) ends requests
  rw [← events, ← asked, Spans.items, Spans.items, List.filter_append,
    filter_has_eq_nil matched.since, List.append_nil, pushed_append,
    List.filter_append]
  exact
    (sublist_of_delivered delivered kind).trans
      (List.sublist_append_left _ _)

/-- A cover of one byte. -/
def setCover (cover : UInt8) : Asked :=
  ({ method := "SET_PARAMETER"
     target := "rtsp://192.0.2.1/1"
     protocol := "RTSP/1.0"
     headers := [("Content-Type", "image/jpeg")]
     body := [cover] }, ⟨none, none⟩)

/-- Of two covers before the stream, the host is told the second. -/
example :
    tells
        (served streamPlatform
          (Session.new streamPlatform ⟨"192.0.2.1"⟩ ⟨"192.0.2.2"⟩)
          [setCover 1, (streamSetup, ⟨none, none⟩), setCover 2,
            (streamSetup, ⟨some 49152, some 49153⟩),
            setCover 3]).effects =
      [.sessionStarted 44100 2 ⟨"192.0.2.2"⟩, .artwork "image/jpeg" [2],
        .artwork "image/jpeg" [3]] := by
  decide +kernel

end OpenAirplay2.Reporting
