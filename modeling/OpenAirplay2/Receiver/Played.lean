import OpenAirplay2.Player.Order
import OpenAirplay2.Receiver.Heard

/-!
# From the queue to the loudspeaker

The playback thread hands chunks to a sink, and the sink hands frames to the
device.  Volume and fade change the samples in between, one by one and in
their place, so what is heard is still what was sent, in its order: each
frame comes from a frame of its own.
-/

namespace OpenAirplay2.Receiver.Output

open OpenAirplay2.Lib.Transition
open OpenAirplay2.Lib.Playback
open OpenAirplay2.Player (Packet Piece State chunks queue spawn)

/-! ## Samples and their volume -/

section Attenuated

variable
    {Gain Sample : Type}
    (levels : Levels Gain Sample)

/-- What volume and fade can make of a sample. -/
inductive Attenuated : Sample → Sample → Prop
  | same (sample : Sample) : Attenuated sample sample
  | zero (sample : Sample) : Attenuated levels.zero sample
  | scale
      (gain : Gain) {played given : Sample}
      (before : Attenuated played given) :
      Attenuated (levels.scale gain played) given
  | ramp
      (pos total : Nat) {played given : Sample}
      (before : Attenuated played given) :
      Attenuated (levels.ramp pos total played) given

variable {levels}

theorem attenuated_refl (samples : List Sample) :
    List.Forall₂ (Attenuated levels) samples samples := by
  rw [List.forall₂_same]
  exact fun sample _ => Attenuated.same sample

theorem attenuated_map
    {change : Sample → Sample}
    (changes :
      ∀ played given, Attenuated levels played given →
        Attenuated levels (change played) given)
    {samples given : List Sample}
    (before : List.Forall₂ (Attenuated levels) samples given) :
    List.Forall₂ (Attenuated levels) (samples.map change) given := by
  rw [List.forall₂_map_left_iff]
  exact before.imp fun _ _ now => changes _ _ now

theorem attenuated_applyGain (samples : List Sample) (gain : Gain) :
    List.Forall₂ (Attenuated levels) (applyGain levels samples gain)
      samples := by
  rw [applyGain]
  split
  · exact attenuated_refl samples
  · split
    · exact
        attenuated_map (fun _ given _ => Attenuated.zero given)
          (attenuated_refl samples)
    · exact
        attenuated_map (fun _ _ before => Attenuated.scale gain before)
          (attenuated_refl samples)

theorem attenuated_fadeFrom
    {channels total frames : Nat} {samples given : List Sample}
    (pos : Nat)
    (before : List.Forall₂ (Attenuated levels) samples given) :
    List.Forall₂ (Attenuated levels)
      (fadeFrom levels channels total frames samples pos).1 given := by
  induction frames generalizing samples given pos with
  | zero => exact before
  | succ frames induction =>
      rw [fadeFrom]
      split
      · exact before
      · have first :=
          attenuated_map
            (fun _ _ before => Attenuated.ramp pos total before)
            (List.forall₂_take channels before)
        have rest := induction (pos + 1) (List.forall₂_drop channels before)
        conv_rhs => rw [← List.take_append_drop channels given]
        exact List.rel_append first rest

theorem attenuated_faded
    (sink : AlsaSink) {samples given : List Sample}
    (before : List.Forall₂ (Attenuated levels) samples given) :
    List.Forall₂ (Attenuated levels) (sink.faded levels samples).1
      given := by
  rw [AlsaSink.faded]
  split
  · exact attenuated_fadeFrom _ before
  · exact before

theorem attenuated_prepare
    {Handle : Type} {alsa : Pcm Handle Sample} (sink : AlsaSink)
    (shared : SharedOutput Handle) (gain : Gain) (pcm : List Sample) :
    List.Forall₂ (Attenuated levels)
      (sink.prepare alsa levels shared gain pcm).1 pcm :=
  attenuated_faded _ (attenuated_applyGain pcm gain)

end Attenuated

/-! ## Frames of chunks -/

section Frames

variable
    {Sample : Type}
    {channels : Nat}

/-- The whole frames of interleaved samples. -/
def frames (channels : Nat) (samples : List Sample) :
    List (List Sample) :=
  framesOf channels (samples.length / channels) samples

theorem framesOf_append
    (count : Nat) {samples : List Sample}
    (within : count * channels ≤ samples.length) (rest : List Sample) :
    framesOf channels count (samples ++ rest) =
      framesOf channels count samples := by
  induction count generalizing samples with
  | zero => rfl
  | succ count induction =>
      have first : channels ≤ samples.length := by
        rw [Nat.add_mul, Nat.one_mul] at within
        omega
      have later :
          count * channels ≤ (samples.drop channels).length := by
        rw [Nat.add_mul, Nat.one_mul] at within
        rw [List.length_drop]
        omega
      rw [framesOf, framesOf, List.take_append_of_le_length first,
        List.drop_append_of_le_length first, induction later]

theorem frames_append
    {first : List Sample} (whole : channels ∣ first.length)
    (second : List Sample) :
    frames channels (first ++ second) =
      frames channels first ++ frames channels second := by
  have length : first.length / channels * channels = first.length :=
    Nat.div_mul_cancel whole
  have count :
      (first ++ second).length / channels =
        first.length / channels + second.length / channels := by
    rw [List.length_append, Nat.add_div_of_dvd_right whole]
  rw [frames, count, framesOf_add, length, List.drop_left,
    framesOf_append _ length.le]
  rfl

theorem frames_flatten
    {given : List (List Sample)}
    (whole : ∀ chunk ∈ given, channels ∣ chunk.length) :
    frames channels given.flatten = given.flatMap (frames channels) := by
  induction given with
  | nil =>
      rw [frames, List.flatten_nil, List.length_nil, Nat.zero_div]
      rfl
  | cons chunk rest induction =>
      rw [List.flatten_cons,
        frames_append (whole chunk List.mem_cons_self),
        induction fun other there =>
          whole other (List.mem_cons_of_mem _ there),
        List.flatMap_cons]

variable
    {Gain : Type}
    {levels : Levels Gain Sample}

/-- The frames of samples that were attenuated, place by place. -/
theorem attenuated_framesOf
    (count : Nat) {samples given : List Sample}
    (before : List.Forall₂ (Attenuated levels) samples given) :
    List.Forall₂ (List.Forall₂ (Attenuated levels))
      (framesOf channels count samples)
      (framesOf channels count given) := by
  induction count generalizing samples given with
  | zero => exact List.Forall₂.nil
  | succ count induction =>
      exact
        List.Forall₂.cons (List.forall₂_take channels before)
          (induction (List.forall₂_drop channels before))

theorem attenuated_frames
    {samples given : List Sample}
    (before : List.Forall₂ (Attenuated levels) samples given) :
    List.Forall₂ (List.Forall₂ (Attenuated levels))
      (frames channels samples) (frames channels given) := by
  rw [frames, frames, before.length_eq]
  exact attenuated_framesOf _ before

end Frames

/-! ## Some of the frames, in their order -/

section Some

variable
    {Left Right : Type}
    {relation : Left → Right → Prop}

theorem sublistForall₂_of_sublist
    {part whole : List Left} {others : List Right}
    (isPart : part.Sublist whole)
    (related : List.SublistForall₂ relation whole others) :
    List.SublistForall₂ relation part others := by
  induction related generalizing part with
  | nil =>
      rw [List.sublist_nil.mp isPart]
      exact List.SublistForall₂.nil
  | cons here _ induction =>
      cases isPart with
      | cons _ isPart => exact (induction isPart).cons_right
      | cons_cons _ isPart => exact (induction isPart).cons here
  | cons_right _ induction => exact (induction isPart).cons_right

theorem sublistForall₂_append
    {first second : List Left} {others more : List Right}
    (related : List.SublistForall₂ relation first others)
    (relatedMore : List.Forall₂ relation second more) :
    List.SublistForall₂ relation (first ++ second) (others ++ more) := by
  rcases List.sublistForall₂_iff.mp related with ⟨part, each, isPart⟩
  exact
    List.sublistForall₂_iff.mpr
      ⟨part ++ more, List.rel_append each relatedMore,
        isPart.append (List.Sublist.refl more)⟩

theorem sublistForall₂_append_right
    {first : List Left} {others : List Right}
    (related : List.SublistForall₂ relation first others)
    (more : List Right) :
    List.SublistForall₂ relation first (others ++ more) := by
  have longer := sublistForall₂_append related List.Forall₂.nil
  rw [List.append_nil, List.append_nil] at longer
  rcases List.sublistForall₂_iff.mp longer with ⟨part, each, isPart⟩
  exact
    List.sublistForall₂_iff.mpr
      ⟨part, each, isPart.trans (List.sublist_append_left _ _)⟩

end Some

/-! ## What a stream hands on -/

/-- The chunk that an operation begins to write. -/
def Op.prepared {Sample : Type} : Op Sample → List (List Sample)
  | .prepare pcm => [pcm]
  | _ => []

/-- The chunk that an act begins to write. -/
def Act.prepared {Handle Gain Sample : Type} :
    Act Handle Gain Sample → List (List Sample)
  | .use _ op => op.prepared
  | _ => []

/-- No stream but this one begins to write. -/
def Act.PreparesOn
    {Handle Gain Sample : Type} (id : Nat)
    (act : Act Handle Gain Sample) : Prop :=
  ∀ other pcm, act = .use other (.prepare pcm) → other = id

section Handing

variable
    {Gain Sample : Type}
    (levels : Levels Gain Sample)
    (channels : Nat)

/-- The frames are attenuated ones of the chunks, in their order. -/
def Delivered (log given : List (List Sample)) : Prop :=
  List.SublistForall₂ (List.Forall₂ (Attenuated levels)) log
    (given.flatMap (frames channels))

/-- The same while the samples of the last chunk are not handed on. -/
def Handed :
    Option (List Sample) → List (List Sample) → List (List Sample) → Prop
  | none, log, given => Delivered levels channels log given
  | some scratch, log, given =>
      ∃ earlier chunk,
        given = earlier ++ [chunk] ∧
          Delivered levels channels log earlier ∧
            List.Forall₂ (Attenuated levels) scratch chunk

variable {levels channels}

theorem Delivered.more
    {log given : List (List Sample)}
    (delivered : Delivered levels channels log given)
    (chunk : List Sample) :
    Delivered levels channels log (given ++ [chunk]) := by
  rw [Delivered, List.flatMap_append]
  exact sublistForall₂_append_right delivered _

/-- An operation hands on the chunk that was begun, or drops it. -/
theorem Op.run_handed
    {Handle : Type} {alsa : Pcm Handle Sample}
    {shared : SharedOutput Handle} {gain : Gain}
    {op : Op Sample} {stream : Stream Sample}
    {log given : List (List Sample)}
    {done : Option (Stream Sample) × SharedOutput Handle}
    (handed : Handed levels channels stream.2 log given)
    (ran : op.run alsa levels shared gain stream = some done) :
    Handed levels channels (done.1.bind Prod.snd)
      (log ++ op.written channels stream) (given ++ op.prepared) := by
  rcases stream with ⟨sink, _ | scratch⟩
  · cases op with
    | prepare pcm =>
        rw [Op.run] at ran
        show Handed levels channels _ (log ++ []) (given ++ [pcm])
        rw [List.append_nil]
        split at ran
        · rw [Option.some.injEq] at ran
          rw [← ran]
          exact
            ⟨given, pcm, rfl, handed, attenuated_prepare sink shared gain pcm⟩
        · rw [Option.some.injEq] at ran
          rw [← ran]
          exact Delivered.more handed pcm
    | finish fuel => cases ran
    | flush =>
        rw [Op.run, Option.some.injEq] at ran
        rw [← ran]
        show Delivered levels channels (log ++ []) (given ++ [])
        rw [List.append_nil, List.append_nil]
        exact handed
    | drop =>
        rw [Op.run, Option.some.injEq] at ran
        rw [← ran]
        show Delivered levels channels (log ++ []) (given ++ [])
        rw [List.append_nil, List.append_nil]
        exact handed
  · cases op with
    | finish fuel =>
        rw [Op.run, Option.map_eq_some_iff] at ran
        rcases ran with ⟨after, _, rfl⟩
        rcases handed with ⟨earlier, chunk, rfl, delivered, attenuated⟩
        show Delivered levels channels (log ++ frames channels scratch)
          (earlier ++ [chunk] ++ [])
        rw [List.append_nil, Delivered, List.flatMap_append,
          List.flatMap_singleton]
        exact
          sublistForall₂_append delivered (attenuated_frames attenuated)
    | prepare pcm => cases ran
    | flush => cases ran
    | drop => cases ran

/-- A stream that does not begin to write has nothing to finish. -/
theorem Op.run_idle
    {Handle : Type} {alsa : Pcm Handle Sample}
    {shared : SharedOutput Handle} {gain : Gain}
    {op : Op Sample} {stream : Stream Sample}
    {done : Option (Stream Sample) × SharedOutput Handle}
    (idle : stream.2 = none)
    (begins : ∀ pcm, op ≠ .prepare pcm)
    (ran : op.run alsa levels shared gain stream = some done) :
    done.1.bind Prod.snd = none ∧
      op.written channels stream = [] ∧ op.prepared = [] := by
  rcases stream with ⟨sink, scratch⟩
  change scratch = none at idle
  subst idle
  cases op with
  | prepare pcm => exact absurd rfl (begins pcm)
  | finish fuel => cases ran
  | flush =>
      rw [Op.run, Option.some.injEq] at ran
      rw [← ran]
      exact ⟨rfl, rfl, rfl⟩
  | drop =>
      rw [Op.run, Option.some.injEq] at ran
      rw [← ran]
      exact ⟨rfl, rfl, rfl⟩

end Handing

namespace Host

variable
    {Gain Sample : Type}
    {moments : Nat → Moment}
    {levels : Levels Gain Sample}

/-- Only one stream writes, and it hands on what it is given. -/
structure Delivers
    (levels : Levels Gain Sample) (channels id : Nat)
    (host : Host (Device Sample) Gain Sample)
    (log given : List (List Sample)) : Prop where
  fresh : host.Fresh
  alone :
    ∀ other, other ≠ id → (host.streams other).bind Prod.snd = none
  handed :
    Handed levels channels ((host.streams id).bind Prod.snd) log given

theorem delivers_initial (channels id : Nat) (gain : Gain) :
    Delivers levels channels id (initial gain) [] [] where
  fresh := fresh_initial gain
  alone _ _ := rfl
  handed := List.SublistForall₂.nil

/-- An act that no write of a stream is part of. -/
theorem Delivers.still
    {channels id : Nat}
    {host next : Host (Device Sample) Gain Sample}
    {log given : List (List Sample)}
    (delivers : Delivers levels channels id host log given)
    (fresh : next.Fresh)
    (same :
      ∀ other,
        (next.streams other).bind Prod.snd =
          (host.streams other).bind Prod.snd) :
    Delivers levels channels id next (log ++ []) (given ++ []) := by
  rw [List.append_nil, List.append_nil]
  refine ⟨fresh, ?_, ?_⟩
  · intro other differs
    rw [same, delivers.alone other differs]
  · rw [same]
    exact delivers.handed

theorem Delivers.step
    {channels id : Nat} {alsa : Pcm (Device Sample) Sample}
    {host next : Host (Device Sample) Gain Sample}
    {log given : List (List Sample)}
    {act : Act (Device Sample) Gain Sample}
    (delivers : Delivers levels channels id host log given)
    (prepares : act.PreparesOn id)
    (stepped : step alsa levels host act = some next) :
    Delivers levels channels id next (log ++ host.written channels act)
      (given ++ act.prepared) := by
  have fresh := delivers.fresh.step stepped
  cases act with
  | ensure rate count opened =>
      rw [Host.step, Option.some.injEq] at stepped
      apply delivers.still fresh
      intro other
      rw [← stepped]
  | create rate count opened =>
      rw [Host.step, Option.some.injEq] at stepped
      apply delivers.still fresh
      intro other
      rw [← stepped]
      show (Function.update host.streams host.next _ other).bind _ = _
      rw [Function.update_apply]
      -- The new stream has begun nothing, like none at all.
      split
      · next isNew =>
          rw [isNew, delivers.fresh host.next le_rfl]
          rfl
      · rfl
  | use used op =>
      rcases step_use_eq_some stepped with ⟨stream, done, present, ran, rfl⟩
      have logs :
          host.written channels (.use used op) =
            op.written channels stream := by
        rw [written, present]
      by_cases same : used = id
      · subst same
        have handed := delivers.handed
        rw [present] at handed
        rw [logs]
        refine ⟨fresh, ?_, ?_⟩
        · intro other differs
          show (Function.update host.streams used done.1 other).bind _ = _
          rw [Function.update_of_ne differs]
          exact delivers.alone other differs
        · show Handed levels channels
            ((Function.update host.streams used done.1 used).bind _) _ _
          rw [Function.update_self]
          exact Op.run_handed handed ran
      · have idle := delivers.alone used same
        rw [present] at idle
        have begins : ∀ pcm, op ≠ .prepare pcm := by
          rintro pcm rfl
          exact same (prepares used pcm rfl)
        rcases @Op.run_idle _ _ _ channels _ _ _ _ _ _ _ idle begins ran with
          ⟨idleAfter, nothing, none⟩
        rw [logs, nothing, Act.prepared, none, List.append_nil,
          List.append_nil]
        refine ⟨fresh, ?_, ?_⟩
        · intro other differs
          show (Function.update host.streams used done.1 other).bind _ = _
          rw [Function.update_apply]
          split
          · exact idleAfter
          · exact delivers.alone other differs
        · show Handed levels channels
            ((Function.update host.streams used done.1 id).bind _) _ _
          rw [Function.update_of_ne (Ne.symm same)]
          exact delivers.handed
  | setGain gain =>
      rw [Host.step, Option.some.injEq] at stepped
      apply delivers.still fresh
      intro other
      rw [← stepped]

theorem delivers_exec
    {gain : Gain} {channels id : Nat}
    {alsa : Pcm (Device Sample) Sample}
    {schedule : List (Act (Device Sample) Gain Sample)}
    {host final : Host (Device Sample) Gain Sample}
    {log given : List (List Sample)}
    (delivers : Delivers levels channels id host log given)
    (prepares : ∀ act ∈ schedule, act.PreparesOn id)
    (reached :
      (system alsa levels gain).exec host schedule = some final) :
    Delivers levels channels id final
      (log ++
        (system alsa levels gain).collect (written channels) host schedule)
      (given ++ schedule.flatMap Act.prepared) := by
  induction schedule generalizing host log given with
  | nil =>
      rw [System.exec_nil, Option.some.injEq] at reached
      rw [← reached, System.collect, List.flatMap_nil, List.append_nil,
        List.append_nil]
      exact delivers
  | cons act rest induction =>
      rw [System.exec_cons_iff] at reached
      rcases reached with ⟨next, stepped, reachedRest⟩
      rw [System.collect_cons stepped, List.flatMap_cons,
        ← List.append_assoc, ← List.append_assoc]
      exact
        induction
          (delivers.step (prepares act List.mem_cons_self) stepped)
          (fun other member =>
            prepares other (List.mem_cons_of_mem _ member))
          reachedRest

/-- The end of a write that is not finished is not heard. -/
theorem Delivers.delivered
    {channels id : Nat}
    {host : Host (Device Sample) Gain Sample}
    {log given : List (List Sample)}
    (delivers : Delivers levels channels id host log given) :
    Delivered levels channels log given := by
  have handed := delivers.handed
  cases writing : (host.streams id).bind Prod.snd with
  | none =>
      rw [writing] at handed
      exact handed
  | some scratch =>
      rw [writing] at handed
      rcases handed with ⟨earlier, chunk, rfl, delivered, _⟩
      exact delivered.more chunk

end Host

/-! ## Whole frames in the queue -/

section Queue

open OpenAirplay2.Player

/-- Every packet, and every chunk of one, is whole frames. -/
structure Whole (channels : Nat) (state : State) : Prop where
  calls :
    ∀ packet, Call.play packet ∈ state.calls →
      channels ∣ packet.pcm.length
  sent : ∀ packet ∈ state.sent, channels ∣ packet.pcm.length
  waiting : ∀ packet ∈ state.waiting, channels ∣ packet.pcm.length
  current : ∀ piece ∈ state.pc.current, channels ∣ piece.2.length
  chunks : ∀ chunk ∈ chunks state.sink, channels ∣ chunk.length

/-- A packet that is played is whole frames. -/
def PlaysWhole (channels : Nat) : Player.Act → Prop
  | .play _ _ pcm => channels ∣ pcm.length
  | _ => True

variable {channels : Nat}

theorem whole_spawn : Whole channels spawn where
  calls _ member := by cases member
  sent _ member := by cases member
  waiting _ member := by cases member
  current _ member := by cases member
  chunks _ member := by cases member

/-- The steps of the thread that write nothing and begin no packet. -/
theorem Whole.still
    {state next : State}
    (whole : Whole channels state)
    (calls : next.calls = state.calls)
    (sent : next.sent = state.sent)
    (waiting : next.waiting.Sublist state.waiting)
    (current : next.pc.current ⊆ state.pc.current)
    (same : Player.chunks next.sink = Player.chunks state.sink) :
    Whole channels next where
  calls := by rw [calls]; exact whole.calls
  sent := by rw [sent]; exact whole.sent
  waiting packet member := whole.waiting packet (waiting.subset member)
  current piece member := whole.current piece (current member)
  chunks := by rw [same]; exact whole.chunks

theorem Whole.thread
    {state next : State}
    (even : channels ∣ writeChunk)
    (whole : Whole channels state)
    (threadStep : ThreadStep state next) :
    Whole channels next := by
  have waiting := waiting_sublist_thread threadStep
  cases threadStep with
  | pop packet rest position holds =>
      have there : packet ∈ state.waiting := by
        simp [State.waiting, holds]
      refine
        ⟨whole.calls, whole.sent,
          fun other member => whole.waiting other (waiting.subset member),
          ?_, whole.chunks⟩
      intro piece member
      rw [List.mem_singleton.mp member]
      exact whole.waiting packet there
  | write packet unwritten position more =>
      have left : channels ∣ unwritten.length :=
        whole.current (packet, unwritten) (by simp [position])
      refine
        ⟨whole.calls, whole.sent,
          fun other member => whole.waiting other (waiting.subset member),
          ?_, ?_⟩
      · intro piece member
        rw [List.mem_singleton.mp member, List.length_drop]
        exact Nat.dvd_sub left even
      · intro chunk member
        rw [chunks_append, chunks_write, List.mem_append,
          List.mem_singleton] at member
        rcases member with old | rfl
        · exact whole.chunks chunk old
        · rw [List.length_take]
          rcases Nat.le_total writeChunk unwritten.length with
            full | rest
          · rwa [min_eq_left full]
          · rwa [min_eq_right rest]
  | swapStop paused position =>
      exact
        whole.still rfl rfl waiting (List.nil_subset _)
          (chunks_swapped state paused)
  | swapNone command paused position running quiet =>
      refine whole.still rfl rfl waiting ?_ (chunks_swapped state paused)
      rw [current_afterControl]
      exact List.nil_subset _
  | swapSome command paused position running requested =>
      exact
        whole.still rfl rfl waiting (List.nil_subset _)
          (chunks_swapped state paused)
  | retained paused flush kept position empty =>
      refine whole.still rfl rfl waiting ?_ rfl
      rw [current_afterControl]
      exact List.nil_subset _
  | report packet interrupted position =>
      refine whole.still rfl rfl waiting ?_ rfl
      cases interrupted <;> exact List.nil_subset _
  | _ =>
      refine whole.still rfl rfl waiting ?_ rfl
      simp_all

theorem Whole.step
    {state next : State} {act : Player.Act}
    (even : channels ∣ writeChunk)
    (whole : Whole channels state)
    (plays : PlaysWhole channels act)
    (stepped : Player.step state act = some next) :
    Whole channels next := by
  rcases step_cases stepped with ⟨rfl, threadStep⟩ | callStep
  · exact whole.thread even threadStep
  · cases callStep with
    | play seq timestamp pcm =>
        refine
          ⟨?_, whole.sent, whole.waiting, whole.current, whole.chunks⟩
        intro packet member
        rcases List.mem_append.mp member with old | new
        · exact whole.calls packet old
        · have same := List.mem_singleton.mp new
          rw [Call.play.injEq] at same
          rw [same]
          exact plays
    | send index call called =>
        have brings :
            ∀ packet ∈ call.command.packets,
              channels ∣ packet.pcm.length := by
          intro packet member
          cases call with
          | play other =>
              rw [List.mem_singleton.mp member]
              exact whole.calls other (List.mem_of_getElem? called)
          | setPaused => cases member
          | flush index => cases member
          | stop => cases member
        refine ⟨?_, ?_, ?_, whole.current, whole.chunks⟩
        · intro packet member
          exact whole.calls packet (List.mem_of_mem_eraseIdx member)
        · intro packet member
          rcases List.mem_append.mp member with old | new
          · exact whole.sent packet old
          · exact brings packet new
        · intro packet member
          simp only [State.waiting, State.deliverTo] at member
          split at member
          · exact whole.waiting packet member
          · rw [← List.append_assoc, List.flatMap_append,
              ← List.append_assoc, List.mem_append,
              List.flatMap_singleton] at member
            rcases member with old | new
            · exact whole.waiting packet old
            · exact brings packet new
    | setPaused paused =>
        refine
          ⟨?_, whole.sent, whole.waiting, whole.current, whole.chunks⟩
        intro packet member
        exact whole.calls packet (by simpa [State.setPaused] using member)
    | flush below =>
        refine
          ⟨?_, whole.sent, whole.waiting, whole.current, whole.chunks⟩
        intro packet member
        exact whole.calls packet (by simpa [State.flush] using member)
    | drop =>
        refine
          ⟨?_, whole.sent, whole.waiting, whole.current, whole.chunks⟩
        intro packet member
        exact whole.calls packet (by simpa [State.drop] using member)

end Queue

/-! ## From the packets to what is heard -/

section Sent

open OpenAirplay2.Player

variable {channels : Nat}

/-- The frames of a packet. -/
def packetFrames (channels : Nat) (packet : Packet) :
    List (List Player.Sample) :=
  frames channels packet.pcm

/-- The beginning of a packet is the first of its frames. -/
theorem frames_prefix_sublist
    {Sample : Type} {part samples : List Sample}
    (whole : channels ∣ part.length) (isPrefix : part <+: samples) :
    (frames channels part).Sublist (frames channels samples) := by
  rcases isPrefix with ⟨rest, rfl⟩
  rw [frames_append whole]
  exact List.sublist_append_left _ _

/-- Each frame that the sink was given is one of a sent packet. -/
theorem given_sublist
    {state : State} {broken : List Packet}
    (even : channels ∣ writeChunk)
    (whole : Whole channels state)
    (inOrder : InOrder state broken) :
    ((chunks state.sink).flatMap (frames channels)).Sublist
      (state.sent.flatMap (packetFrames channels)) := by
  rcases inOrder with ⟨finished, begun, sublist, given, ended, begins⟩
  have chunked :
      ∀ piece ∈ finished ++ begun, Piece.Chunked piece := by
    intro piece member
    rcases List.mem_append.mp member with done | now
    · exact (ended piece done).1
    · exact chunked_of_begun begins piece now
  have ofSent :
      ((finished ++ begun).map Prod.fst).Sublist state.sent :=
    (List.sublist_append_left _ _).trans sublist
  have wholePieces :
      ∀ piece ∈ finished ++ begun, channels ∣ piece.2.length := by
    intro piece member
    rcases (chunked piece member).2 with boundary | all
    · exact even.trans (Nat.dvd_of_mod_eq_zero boundary)
    · rw [all]
      exact
        whole.sent piece.1
          (ofSent.subset (List.mem_map_of_mem member))
  rw [← frames_flatten whole.chunks, given, frames_flatten]
  · refine List.Sublist.trans ?_ (ofSent.flatMap _)
    rw [List.flatMap_map, List.flatMap_map]
    generalize finished ++ begun = pieces at chunked wholePieces
    induction pieces with
    | nil => exact List.Sublist.refl _
    | cons piece rest induction =>
        rw [List.flatMap_cons, List.flatMap_cons]
        have here := List.mem_cons_self (a := piece) (l := rest)
        exact
          (frames_prefix_sublist (wholePieces piece here)
            (chunked piece here).1).append
            (induction
              (fun other there =>
                chunked other (List.mem_cons_of_mem _ there))
              (fun other there =>
                wholePieces other (List.mem_cons_of_mem _ there)))
  · intro part member
    rcases List.mem_map.mp member with ⟨piece, there, rfl⟩
    exact wholePieces piece there

end Sent

namespace Host

open OpenAirplay2.Player (chunks queue writeChunk)

variable
    {Gain : Type}
    {moments : Nat → Moment}
    {levels : Levels Gain Player.Sample}

/-- Whole percents of a 16-bit sample. -/
def percents16 : Levels Nat Player.Sample where
  full := fun gain => 100 ≤ gain
  muted := fun gain => gain = 0
  zero := 0
  scale := fun gain sample => Int16.ofInt (sample.toInt * gain / 100)
  ramp := fun pos total sample => Int16.ofInt (sample.toInt * pos / total)

/-- A stereo ring of four frames that is not started. -/
def freshStereo : AlsaOutput (Device Player.Sample) where
  pcm :=
    { ring := Buffer.empty 4
      running := false
      calls := 0 }
  channels := 2
  bufferSize := 4

/-- A packet of two frames, up to where the thread hands it to its sink. -/
def onePacket : List Player.Act :=
  [.play 7 0 [10, 20, 30, 40], .send 0, .thread, .thread, .thread,
    .thread, .thread, .thread]

/-- The sink opens the device and writes the packet. -/
def onePacketWritten : List (Act (Device Player.Sample) Nat Player.Sample) :=
  [.create 200 2 (.ok freshStereo), .use 0 (.prepare [10, 20, 30, 40]),
    .use 0 (.finish 9)]

theorem proper_onePacketWritten :
    ∀ act ∈ onePacketWritten, Proper (200, 2) act := by
  intro act member
  simp only [onePacketWritten, List.mem_cons, List.not_mem_nil, or_false]
    at member
  rcases member with rfl | rfl | rfl
  · constructor
    · intro wanted opens
      cases opens
      rfl
    · intro wanted output opens
      cases opens
      exact ⟨⟨rfl, rfl, fun _ => le_rfl⟩, rfl⟩
  · exact proper_use _ _ _
  · exact proper_use _ _ _

theorem onePacket_queued :
    ((queue.exec spawn onePacket).map fun state => chunks state.sink) =
      some [[10, 20, 30, 40]] := by
  decide +kernel

theorem onePacketWritten_opens :
    (((system (Device.alsa ticking 2) percents16 100).exec (initial 100)
        onePacketWritten).bind fun final => final.shared.output).isSome =
      true := by
  decide +kernel

end Host

end OpenAirplay2.Receiver.Output
