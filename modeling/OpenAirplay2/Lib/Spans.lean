import Mathlib

/-!
# Spans of a sequence

Some items of a sequence open a span and some close it.  Read from the left,
the sequence falls into spans and what lies before, between and behind them:
an opener ends a span that is still open and opens the next, a closer ends
the span that is open, and outside a span it is an item like any other.
-/

namespace OpenAirplay2.Lib

universe u

/-- A span, with what lies between it and the span before. -/
structure Span (α : Type u) where
  before : List α
  opener : α
  within : List α

/-- What was read: spans that are over, and the span that is open, if any. -/
inductive Spans (α : Type u) where
  | outside (past : List (Span α)) (since : List α)
  | inside (past : List (Span α)) (current : Span α)

namespace Span

variable {α : Type u}

def add (span : Span α) (items : List α) : Span α :=
  { span with within := span.within ++ items }

/-- The items of the span, and those before it. -/
def items (span : Span α) : List α :=
  span.before ++ span.opener :: span.within

end Span

namespace Spans

variable
    {α : Type u}
    (opens closes : α → Bool)

/-- One more item. -/
def push : Spans α → α → Spans α
  | .outside past since, item =>
      if opens item then
        .inside past ⟨since, item, []⟩
      else
        .outside past (since ++ [item])
  | .inside past current, item =>
      if opens item then
        .inside (past ++ [current]) ⟨[], item, []⟩
      else if closes item then
        .outside (past ++ [current]) [item]
      else
        .inside past (current.add [item])

/-- The spans of a sequence. -/
def cut (items : List α) : Spans α :=
  items.foldl (push opens closes) (.outside [] [])

/-- All spans, in order. -/
def all : Spans α → List (Span α)
  | .outside past _ => past
  | .inside past current => past ++ [current]

/-- What lies behind the last span, if that is over. -/
def since : Spans α → List α
  | .outside _ since => since
  | .inside _ _ => []

theorem cut_append (first second : List α) :
    cut opens closes (first ++ second) =
      second.foldl (push opens closes) (cut opens closes first) :=
  List.foldl_append

theorem cut_concat (items : List α) (item : α) :
    cut opens closes (items ++ [item]) =
      push opens closes (cut opens closes items) item :=
  cut_append opens closes items [item]

section Push

variable
    {opens closes}
    {past : List (Span α)}
    {item : α}

theorem push_outside
    (opener : opens item = false)
    (since : List α) :
    push opens closes (.outside past since) item =
      .outside past (since ++ [item]) := by
  rw [push, opener]
  rfl

theorem push_inside
    (opener : opens item = false)
    (closer : closes item = false)
    (current : Span α) :
    push opens closes (.inside past current) item =
      .inside past (current.add [item]) := by
  rw [push, opener, closer]
  rfl

/-- An opener opens a span, wherever it is found. -/
theorem push_opener
    (opener : opens item = true)
    (spans : Spans α) :
    push opens closes spans item =
      .inside spans.all ⟨spans.since, item, []⟩ := by
  cases spans with
  | outside past since => rw [push, if_pos opener]; rfl
  | inside past current => rw [push, if_pos opener]; rfl

theorem push_closer
    (opener : opens item = false)
    (closer : closes item = true)
    (current : Span α) :
    push opens closes (.inside past current) item =
      .outside (past ++ [current]) [item] := by
  rw [push, opener, closer]
  rfl

/-- Items that open nothing stay outside. -/
theorem foldl_push_outside
    {items : List α}
    (openers : ∀ item ∈ items, opens item = false)
    (since : List α) :
    items.foldl (push opens closes) (.outside past since) =
      .outside past (since ++ items) := by
  induction items generalizing since with
  | nil => rw [List.append_nil]; rfl
  | cons item items induction =>
      rw [List.forall_mem_cons] at openers
      rw [List.foldl_cons, push_outside openers.1, induction openers.2,
        List.append_assoc]
      rfl

/-- Items that also close nothing stay inside. -/
theorem foldl_push_inside
    {items : List α}
    (plain : ∀ item ∈ items, opens item = false ∧ closes item = false)
    (current : Span α) :
    items.foldl (push opens closes) (.inside past current) =
      .inside past (current.add items) := by
  induction items generalizing current with
  | nil => rw [Span.add, List.append_nil]; rfl
  | cons item items induction =>
      rw [List.forall_mem_cons] at plain
      rw [List.foldl_cons, push_inside plain.1.1 plain.1.2,
        induction plain.2, Span.add, Span.add, Span.add,
        List.append_assoc]
      rfl

end Push

/-- The items of all spans, and those behind them. -/
def items (spans : Spans α) : List α :=
  spans.all.flatMap Span.items ++ spans.since

theorem items_push (spans : Spans α) (item : α) :
    (push opens closes spans item).items = spans.items ++ [item] := by
  cases opener : opens item with
  | true =>
      rw [push_opener opener]
      simp [items, all, since, Span.items]
  | false =>
      cases spans with
      | outside past since =>
          rw [push_outside opener]
          simp [items, all, Spans.since]
      | inside past current =>
          cases closer : closes item with
          | true =>
              rw [push_closer opener closer]
              simp [items, all, since]
          | false =>
              rw [push_inside opener closer]
              simp [items, all, since, Span.items, Span.add]

/-- Nothing is lost by cutting. -/
theorem items_cut (items : List α) :
    (cut opens closes items).items = items := by
  induction items using List.reverseRecOn with
  | nil => rfl
  | append_singleton items item induction =>
      rw [cut_concat, items_push, induction]

end Spans

end OpenAirplay2.Lib
