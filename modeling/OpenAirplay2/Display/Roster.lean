import OpenAirplay2.Display.Screen
import OpenAirplay2.Lib.Catalog

/-!
# The roster of receivers

A receiver is advertised once per interface and address family, and every
advertisement comes and goes on its own.  The list on offer has one row per
name: an advertisement of that name that was not removed, and not one with an
IPv6 literal if there is another.
-/

namespace OpenAirplay2.Display.Discover

open OpenAirplay2.Lib
open OpenAirplay2.Lib.Str
open OpenAirplay2.Pairing (Bytes)

attribute [local instance] lexOrd

/-! ## Resolving an advertisement -/

def isIpv6Url (url : String) : Bool :=
  startsWith url "ws://["

/-- `ws://host:port`, with the brackets an IPv6 literal needs. -/
def endpointUrl (address : String) (port : UInt16) : String :=
  if address.toList.contains ':' then
    "ws://[" ++ address ++ "]:" ++ toString port.toNat
  else
    "ws://" ++ address ++ ":" ++ toString port.toNat

/-- Does TXT say the endpoint wants a password? -/
def wantsPassword (txt : List Bytes) : Bool :=
  txt.any fun entry => entry == asciiBytes "pw=1"

/-- What an advertisement was resolved to. -/
structure Resolved where
  name : String
  address : String
  port : UInt16
  txt : List Bytes
deriving DecidableEq, Repr

def Resolved.receiver (resolved : Resolved) : Receiver where
  name := resolved.name
  url := endpointUrl resolved.address resolved.port
  password := wantsPassword resolved.txt

/-- The display takes every resolved URL for a URL. -/
theorem parse_endpointUrl (address : String) (port : UInt16) :
    Endpoint.parse (endpointUrl address port) =
      .url (endpointUrl address port) := by
  have starts : startsWith (endpointUrl address port) "ws://" = true := by
    rw [endpointUrl]
    split_ifs <;> simp [startsWith]
  rw [Endpoint.parse, starts, Bool.true_or, if_pos rfl]

/-- The URL has brackets exactly if the address has a colon. -/
theorem isIpv6Url_endpointUrl
    {address : String} (plain : address.toList.head? ≠ some '[')
    (port : UInt16) :
    isIpv6Url (endpointUrl address port) =
      address.toList.contains ':' := by
  rw [endpointUrl]
  split_ifs with colon
  · rw [colon]
    simp [isIpv6Url, startsWith]
  · rw [Bool.not_eq_true] at colon
    rw [colon]
    cases chars : address.toList with
    | nil =>
        simp only [isIpv6Url, startsWith, String.toList_append, chars]
        rfl
    | cons first rest =>
        rw [chars, List.head?_cons, ne_eq, Option.some.injEq] at plain
        simp only [isIpv6Url, startsWith, String.toList_append, chars]
        show ('[' == first && _) = false
        rw [beq_false_of_ne (Ne.symm plain), Bool.false_and]

/-! ## The roster -/

/-- One advertisement: interface, protocol and name. -/
abbrev Key := Int × Int × String

/-- Everything currently advertised. -/
structure Roster where
  entries : Std.TreeMap Key Receiver

namespace Roster

variable (roster : Roster)

def empty : Roster where
  entries := ∅

def add (interface protocol : Int) (receiver : Receiver) : Roster where
  entries :=
    roster.entries.insert (interface, protocol, receiver.name) receiver

def remove (interface protocol : Int) (name : String) : Roster where
  entries := roster.entries.erase (interface, protocol, name)

/-- `BTreeMap::values` -/
def values : List Receiver :=
  roster.entries.toList.map Prod.snd

/-- The list to offer: one entry per name, sorted by name. -/
def receivers : List Receiver :=
  let byName : Std.TreeMap String Receiver :=
    roster.values.foldl
      (fun byName receiver =>
        byName.alter receiver.name fun
          | none => some receiver
          | some kept =>
              if isIpv6Url kept.url && !isIpv6Url receiver.url then
                some receiver
              else
                some kept) ∅
  byName.toList.map Prod.snd

end Roster

/-- What the daemon reports about an advertisement. -/
inductive Notification where
  | itemNew (interface protocol : Int) (resolved : Resolved)
  | itemRemove (interface protocol : Int) (name : String)
deriving DecidableEq, Repr

def Roster.notify (roster : Roster) : Notification → Roster
  | .itemNew interface protocol resolved =>
      roster.add interface protocol resolved.receiver
  | .itemRemove interface protocol name =>
      roster.remove interface protocol name

/-- The roster after a history of notifications. -/
def Roster.after (history : List Notification) : Roster :=
  history.foldl Roster.notify Roster.empty

/-! ## What is on offer -/

namespace Notification

def key : Notification → Key
  | itemNew interface protocol resolved =>
      (interface, protocol, resolved.name)
  | itemRemove interface protocol name => (interface, protocol, name)

def receiver : Notification → Option Receiver
  | itemNew _ _ resolved => some resolved.receiver
  | itemRemove _ _ _ => none

end Notification

/-- An advertisement that was not replaced or removed since. -/
def Live
    (history : List Notification)
    (interface protocol : Int) (resolved : Resolved) : Prop :=
  ∃ before after,
    history = before ++ .itemNew interface protocol resolved :: after ∧
      ∀ later ∈ after, later.key ≠ (interface, protocol, resolved.name)

/-- One row for each name that has a live advertisement. -/
structure Offers
    (history : List Notification) (rows : List Receiver) : Prop where
  sorted : rows.Pairwise fun first second => first.name < second.name
  listed :
    ∀ name,
      (∃ row ∈ rows, row.name = name) ↔
        ∃ interface protocol resolved,
          Live history interface protocol resolved ∧ resolved.name = name
  live :
    ∀ row ∈ rows,
      ∃ interface protocol resolved,
        Live history interface protocol resolved ∧
          resolved.receiver = row
  ipv4 :
    ∀ row ∈ rows,
      isIpv6Url row.url = false ↔
        ∃ interface protocol resolved,
          Live history interface protocol resolved ∧
            resolved.name = row.name ∧
            isIpv6Url resolved.receiver.url = false

theorem entries_after (history : List Notification) :
    (Roster.after history).entries =
      Catalog.replay Notification.key Notification.receiver history := by
  induction history using List.reverseRecOn with
  | nil => rfl
  | append_singleton history last induction =>
      rw [Roster.after, Catalog.replay, List.foldl_append, List.foldl_append]
      show (((Roster.after history).notify last).entries) =
        Catalog.record _ _ (Catalog.replay _ _ history) last
      rw [← induction]
      cases last with
      | itemNew interface protocol resolved => rfl
      | itemRemove interface protocol name => rfl

/-- What is in the roster is what is live. -/
theorem mem_values_iff
    {history : List Notification} {receiver : Receiver} :
    receiver ∈ (Roster.after history).values ↔
      ∃ interface protocol resolved,
        Live history interface protocol resolved ∧
          resolved.receiver = receiver := by
  rw [Roster.values, List.mem_map, entries_after]
  constructor
  · rintro ⟨⟨⟨interface, protocol, name⟩, item⟩, member, rfl⟩
    rw [Std.TreeMap.mem_toList_iff_getElem?_eq_some,
      Catalog.getElem?_replay] at member
    rcases member with ⟨before, event, after, split, isKey, put, rest⟩
    cases event with
    | itemNew interface' protocol' resolved =>
        cases isKey
        cases put
        exact ⟨interface, protocol, resolved, ⟨before, after, split, rest⟩,
          rfl⟩
    | itemRemove interface' protocol' name' => cases put
  · rintro ⟨interface, protocol, resolved, ⟨before, after, split, rest⟩, rfl⟩
    refine ⟨((interface, protocol, resolved.name), resolved.receiver), ?_,
      rfl⟩
    rw [Std.TreeMap.mem_toList_iff_getElem?_eq_some,
      Catalog.getElem?_replay]
    exact ⟨before, _, after, split, rfl, rfl, rest⟩

theorem receivers_eq (roster : Roster) :
    roster.receivers =
      Catalog.rows Receiver.name (fun receiver => isIpv6Url receiver.url)
        roster.values := by
  rw [Roster.receivers, Catalog.rows, Catalog.byName]
  congr 3
  funext byName receiver
  congr 1
  funext kept
  cases kept with
  | none => rfl
  | some kept => rfl

/-- The list on offer is right at every time. -/
theorem offers_receivers (history : List Notification) :
    Offers history (Roster.after history).receivers := by
  rw [receivers_eq]
  constructor
  · refine List.Pairwise.imp ?_ (Catalog.pairwise_rows _)
    intro first second ordered
    exact compareOfLessAndEq_eq_lt.mp ordered
  · intro name
    rw [Catalog.exists_mem_rows_iff]
    constructor
    · rintro ⟨receiver, member, rfl⟩
      rcases mem_values_iff.mp member with
        ⟨interface, protocol, resolved, live, rfl⟩
      exact ⟨interface, protocol, resolved, live, rfl⟩
    · rintro ⟨interface, protocol, resolved, live, rfl⟩
      exact ⟨resolved.receiver,
        mem_values_iff.mpr ⟨interface, protocol, resolved, live, rfl⟩, rfl⟩
  · intro row member
    exact mem_values_iff.mp (Catalog.of_mem_rows member)
  · intro row member
    rw [Catalog.weak_row_iff member]
    constructor
    · rintro ⟨receiver, isValue, isNamed, strong⟩
      rcases mem_values_iff.mp isValue with
        ⟨interface, protocol, resolved, live, rfl⟩
      exact ⟨interface, protocol, resolved, live, isNamed, strong⟩
    · rintro ⟨interface, protocol, resolved, live, isNamed, strong⟩
      exact ⟨resolved.receiver,
        mem_values_iff.mpr ⟨interface, protocol, resolved, live, rfl⟩,
        isNamed, strong⟩

end OpenAirplay2.Display.Discover
