import Mathlib

/-!
# Command lines

A command line is read from the left.  A flag may take the argument after it
as its value, an argument that only informs ends the reading, and what cannot
be read is refused with a message.

`Reads` says what the arguments before some point add up to, and the three
ways in which reading ends are each said in terms of it.  Where every flag
sets some parts of the settings whatever these were, the settings are those
of the last flag for each part.
-/

namespace OpenAirplay2.Lib.CommandLine

universe u v w

/-- What an argument stands for. -/
inductive Flag (Settings : Type u) (Info : Type v) where
  /-- The next argument is its value. -/
  | value (set : String → Settings → Except String Settings)
  | plain (set : Settings → Except String Settings)
  | info (info : Info)

/-- What a command line asks for. -/
inductive Outcome (Settings : Type u) (Info : Type v) where
  | run (settings : Settings)
  | info (info : Info)
deriving DecidableEq, Repr

section Reading

variable
    {Settings : Type u}
    {Info : Type v}
    (table : String → Option (Flag Settings Info))

/-- Read the arguments that are left. -/
def parse (settings : Settings) :
    List String → Except String (Outcome Settings Info)
  | [] => .ok (.run settings)
  | arg :: rest =>
      match table arg with
      | none => .error ("unknown argument: " ++ arg)
      | some (.info info) => .ok (.info info)
      | some (.plain set) =>
          match set settings with
          | .error message => .error message
          | .ok settings => parse settings rest
      | some (.value set) =>
          match rest with
          | [] => .error (arg ++ " needs a value")
          | value :: rest =>
              match set value settings with
              | .error message => .error message
              | .ok settings => parse settings rest

/-- These arguments take the one settings to the other. -/
inductive Reads : Settings → List String → Settings → Prop
  | nil (settings : Settings) : Reads settings [] settings
  | plain {arg : String} {set : Settings → Except String Settings}
      {settings middle final : Settings} {rest : List String}
      (found : table arg = some (.plain set))
      (taken : set settings = .ok middle)
      (more : Reads middle rest final) :
      Reads settings (arg :: rest) final
  | value {arg value : String}
      {set : String → Settings → Except String Settings}
      {settings middle final : Settings} {rest : List String}
      (found : table arg = some (.value set))
      (taken : set value settings = .ok middle)
      (more : Reads middle rest final) :
      Reads settings (arg :: value :: rest) final

/-- The first of these arguments is refused. -/
inductive Refuses : Settings → List String → String → Prop
  | unknown {arg : String} (settings : Settings) (rest : List String)
      (found : table arg = none) :
      Refuses settings (arg :: rest) ("unknown argument: " ++ arg)
  | plain {arg message : String}
      {set : Settings → Except String Settings}
      {settings : Settings} (rest : List String)
      (found : table arg = some (.plain set))
      (refused : set settings = .error message) :
      Refuses settings (arg :: rest) message
  | noValue {arg : String}
      {set : String → Settings → Except String Settings}
      (settings : Settings)
      (found : table arg = some (.value set)) :
      Refuses settings [arg] (arg ++ " needs a value")
  | value {arg value message : String}
      {set : String → Settings → Except String Settings}
      {settings : Settings} (rest : List String)
      (found : table arg = some (.value set))
      (refused : set value settings = .error message) :
      Refuses settings (arg :: value :: rest) message

variable {table}

theorem parse_plain
    {arg : String} {set : Settings → Except String Settings}
    {settings middle : Settings}
    (found : table arg = some (.plain set))
    (taken : set settings = .ok middle)
    (rest : List String) :
    parse table settings (arg :: rest) = parse table middle rest := by
  rw [parse, found]
  simp only [taken]

theorem parse_value
    {arg value : String}
    {set : String → Settings → Except String Settings}
    {settings middle : Settings}
    (found : table arg = some (.value set))
    (taken : set value settings = .ok middle)
    (rest : List String) :
    parse table settings (arg :: value :: rest) =
      parse table middle rest := by
  rw [parse, found]
  simp only [taken]

/-- Reading goes on from where some arguments lead. -/
theorem parse_of_reads
    {settings middle : Settings} {before : List String}
    (reads : Reads table settings before middle)
    (after : List String) :
    parse table settings (before ++ after) = parse table middle after := by
  induction reads with
  | nil settings => rfl
  | plain found taken _ induction =>
      rw [List.cons_append, parse_plain found taken, induction]
  | value found taken _ induction =>
      rw [List.cons_append, List.cons_append, parse_value found taken,
        induction]

theorem parse_of_refuses
    {settings : Settings} {args : List String} {message : String}
    (refuses : Refuses table settings args message) :
    parse table settings args = .error message := by
  cases refuses with
  | unknown settings rest found => rw [parse, found]
  | plain rest found refused =>
      rw [parse, found]
      simp only [refused]
  | noValue settings found => rw [parse, found]
  | value rest found refused =>
      rw [parse, found]
      simp only [refused]

/-- How the reading of a command line ends. -/
inductive Ending (settings : Settings) (args : List String) :
    Except String (Outcome Settings Info) → Prop
  | run {final : Settings}
      (reads : Reads table settings args final) :
      Ending settings args (.ok (.run final))
  | info {before after : List String} {arg : String}
      {middle : Settings} {info : Info}
      (split : args = before ++ arg :: after)
      (reads : Reads table settings before middle)
      (found : table arg = some (.info info)) :
      Ending settings args (.ok (.info info))
  | refused {before after : List String} {middle : Settings}
      {message : String}
      (split : args = before ++ after)
      (reads : Reads table settings before middle)
      (refuses : Refuses table middle after message) :
      Ending settings args (.error message)

theorem Ending.plain
    {arg : String} {set : Settings → Except String Settings}
    {settings middle : Settings} {rest : List String}
    {ending : Except String (Outcome Settings Info)}
    (found : table arg = some (.plain set))
    (taken : set settings = .ok middle)
    (ends : @Ending _ _ table middle rest ending) :
    @Ending _ _ table settings (arg :: rest) ending := by
  cases ends with
  | run reads => exact .run (.plain found taken reads)
  | info split reads foundInfo =>
      exact
        .info (congrArg (arg :: ·) split) (.plain found taken reads)
          foundInfo
  | refused split reads refuses =>
      exact
        .refused (congrArg (arg :: ·) split) (.plain found taken reads)
          refuses

theorem Ending.value
    {arg value : String}
    {set : String → Settings → Except String Settings}
    {settings middle : Settings} {rest : List String}
    {ending : Except String (Outcome Settings Info)}
    (found : table arg = some (.value set))
    (taken : set value settings = .ok middle)
    (ends : @Ending _ _ table middle rest ending) :
    @Ending _ _ table settings (arg :: value :: rest) ending := by
  cases ends with
  | run reads => exact .run (.value found taken reads)
  | info split reads foundInfo =>
      exact
        .info (congrArg (arg :: value :: ·) split)
          (.value found taken reads) foundInfo
  | refused split reads refuses =>
      exact
        .refused (congrArg (arg :: value :: ·) split)
          (.value found taken reads) refuses

/-- Every command line is read in one of the three ways. -/
theorem ending_parse (settings : Settings) (args : List String) :
    @Ending _ _ table settings args (parse table settings args) := by
  fun_induction parse table settings args with
  | case1 settings => exact .run (.nil settings)
  | case2 settings arg rest found =>
      exact .refused rfl (.nil settings) (.unknown settings rest found)
  | case3 settings arg rest info found =>
      exact .info rfl (.nil settings) found
  | case4 settings arg rest set found message refused =>
      exact .refused rfl (.nil settings) (.plain rest found refused)
  | case5 settings arg rest set found middle taken induction =>
      exact induction.plain found taken
  | case6 settings arg set found =>
      exact .refused rfl (.nil settings) (.noValue settings found)
  | case7 settings arg set found value rest message refused =>
      exact .refused rfl (.nil settings) (.value rest found refused)
  | case8 settings arg set found value rest middle taken induction =>
      exact induction.value found taken

/-- And only in that way. -/
theorem parse_of_ending
    {settings : Settings} {args : List String}
    {ending : Except String (Outcome Settings Info)}
    (ends : @Ending _ _ table settings args ending) :
    parse table settings args = ending := by
  cases ends with
  | run reads =>
      have all := parse_of_reads reads []
      rwa [List.append_nil] at all
  | info split reads found =>
      rw [split, parse_of_reads reads, parse, found]
  | refused split reads refuses =>
      rw [split, parse_of_reads reads, parse_of_refuses refuses]

theorem parse_eq_iff
    {settings : Settings} {args : List String}
    {ending : Except String (Outcome Settings Info)} :
    parse table settings args = ending ↔
      @Ending _ _ table settings args ending := by
  constructor
  · rintro rfl
    exact ending_parse settings args
  · exact parse_of_ending

theorem parse_eq_run_iff
    {settings final : Settings} {args : List String} :
    parse table settings args = .ok (.run final) ↔
      Reads table settings args final := by
  rw [parse_eq_iff]
  constructor
  · intro ends
    cases ends with
    | run reads => exact reads
  · exact .run

/-- What every flag keeps, a command line keeps. -/
theorem Reads.invariant
    {holds : Settings → Prop}
    (plain :
      ∀ arg set settings next, holds settings →
        table arg = some (.plain set) → set settings = .ok next →
          holds next)
    (value :
      ∀ arg given set settings next, holds settings →
        table arg = some (.value set) → set given settings = .ok next →
          holds next)
    {settings final : Settings} {args : List String}
    (reads : Reads table settings args final)
    (start : holds settings) :
    holds final := by
  induction reads with
  | nil settings => exact start
  | plain found taken _ induction =>
      exact induction (plain _ _ _ _ start found taken)
  | value found taken _ induction =>
      exact induction (value _ _ _ _ _ start found taken)

/-! ## Layers -/

variable (table)

/-- The flags of a command line, each with its value. -/
def items : List String → List (String × String)
  | [] => []
  | arg :: rest =>
      match table arg with
      | some (.plain _) => (arg, "") :: items rest
      | some (.value _) =>
          match rest with
          | [] => []
          | value :: rest => (arg, value) :: items rest
      | _ => []

variable {table}

theorem items_plain
    {arg : String} {set : Settings → Except String Settings}
    (found : table arg = some (.plain set)) (rest : List String) :
    items table (arg :: rest) = (arg, "") :: items table rest := by
  rw [items.eq_def]
  simp only [found]

theorem items_value
    {arg : String} {set : String → Settings → Except String Settings}
    (found : table arg = some (.value set))
    (value : String) (rest : List String) :
    items table (arg :: value :: rest) =
      (arg, value) :: items table rest := by
  rw [items.eq_def]
  simp only [found]

/-- Flags that lay something over the settings add up to their layers. -/
theorem Reads.layers
    {override : Settings → Settings → Settings}
    {layer : String × String → Settings}
    (plain :
      ∀ arg set settings next, table arg = some (.plain set) →
        set settings = .ok next → next = override (layer (arg, "")) settings)
    (value :
      ∀ arg given set settings next, table arg = some (.value set) →
        set given settings = .ok next →
          next = override (layer (arg, given)) settings)
    {settings final : Settings} {args : List String}
    (reads : Reads table settings args final) :
    final =
      (items table args).foldl
        (fun lower item => override (layer item) lower) settings := by
  induction reads with
  | nil settings => rfl
  | plain found taken _ induction =>
      rw [items_plain found, List.foldl_cons,
        ← plain _ _ _ _ found taken]
      exact induction
  | value found taken _ induction =>
      rw [items_value found, List.foldl_cons,
        ← value _ _ _ _ _ found taken]
      exact induction

end Reading

/-- A part of the settings is that of the last layer that has it. -/
theorem foldl_layers
    {Settings : Type u} {Item : Type v} {Part : Type w}
    {override : Settings → Settings → Settings} {layer : Item → Settings}
    {part : Settings → Option Part}
    (part_override :
      ∀ upper lower,
        part (override upper lower) = (part upper).or (part lower))
    (items : List Item) (settings : Settings) :
    part
        (items.foldl (fun lower item => override (layer item) lower)
          settings) =
      ((items.filterMap fun item => part (layer item)).getLast?).or
        (part settings) := by
  induction items generalizing settings with
  | nil => rfl
  | cons item rest induction =>
      rw [List.foldl_cons, induction, part_override, List.filterMap_cons]
      cases part (layer item) with
      | none => rfl
      | some value =>
          rw [Option.some_or, List.getLast?_cons]
          cases (rest.filterMap fun item => part (layer item)).getLast? with
          | none => rfl
          | some last => rfl

end OpenAirplay2.Lib.CommandLine
