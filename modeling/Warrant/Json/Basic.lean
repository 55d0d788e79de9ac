import Warrant.Number.Binary64

/-!
# Data values

The values that conditions, contexts and policies are made of: null, booleans, numbers, texts,
lists and objects.  A number is either an integer of 64 bits, signed or unsigned, kept exactly,
or a binary64 number.  An object is the list of its entries in the order in which their keys were
first inserted; inserting a key again replaces its value in place.  That no key occurs twice is
the predicate `Json.KeysDistinct`, which every value built by insertion satisfies.

**Results.**
* `find?_insert`: what an object holds after an insertion.
* `keys_insert`: the keys of an object after an insertion, in order.
-/

namespace Warrant

/-- An integer that fits 64 bits, read as signed or as unsigned. -/
structure Integer where
  val : Int
  lower : -9223372036854775808 ≤ val
  upper : val < 18446744073709551616
deriving DecidableEq

/-- The integer, if it fits. -/
def Integer.ofInt? (n : Int) : Option Integer :=
  if h : -9223372036854775808 ≤ n ∧ n < 18446744073709551616 then some ⟨n, h.1, h.2⟩ else none

/-- A number of a data value: an exact integer or a binary64 number. -/
inductive Number where
  | integer (n : Integer)
  | float (x : Binary64)
deriving DecidableEq

/-- A data value. -/
inductive Json where
  | null
  | bool (b : Bool)
  | number (n : Number)
  | string (s : String)
  | array (items : List Json)
  | object (entries : List (String × Json))
deriving Inhabited

/-- The entries of an object, in the order of their first insertion. -/
abbrev Object := List (String × Json)

namespace Object

/-- The value under a key. -/
def find? (o : Object) (key : String) : Option Json :=
  o.lookup key

/-- Whether a key occurs. -/
def hasKey (o : Object) (key : String) : Bool :=
  (o.find? key).isSome

/-- The keys in order. -/
def keys (o : Object) : List String :=
  o.map Prod.fst

/-- Puts a value under a key: in place of the old value, or at the end. -/
def insert : Object → String → Json → Object
  | [], key, value => [(key, value)]
  | (k, v) :: rest, key, value =>
      if k = key then (k, value) :: rest else (k, v) :: insert rest key value

/-- The object with the given entries inserted one after the other. -/
def ofEntries (entries : List (String × Json)) : Object :=
  entries.foldl (fun o e => o.insert e.1 e.2) []

@[simp] theorem find?_nil (key : String) : find? [] key = none := rfl

theorem find?_cons (k : String) (v : Json) (o : Object) (key : String) :
    find? ((k, v) :: o) key = if key = k then some v else find? o key := by
  unfold find?
  rw [List.lookup_cons]
  by_cases h : key = k
  · simp [h]
  · have hb : (key == k) = false := by simpa using h
    simp [h, hb]

/-- What an object holds after an insertion. -/
theorem find?_insert (o : Object) (key : String) (value : Json) (k : String) :
    (o.insert key value).find? k = if k = key then some value else o.find? k := by
  induction o with
  | nil => simp [insert, find?_cons]
  | cons e o ih =>
      obtain ⟨k', v'⟩ := e
      by_cases h : k' = key
      · subst h
        by_cases hk : k = k'
        · simp [insert, find?_cons, hk]
        · simp [insert, find?_cons, hk]
      · by_cases hk : k = k'
        · subst hk; simp [insert, h, find?_cons]
        · simp [insert, h, find?_cons, hk, ih]

/-- The keys after an insertion: a new key stands last. -/
theorem keys_insert (o : Object) (key : String) (value : Json) :
    (o.insert key value).keys = if key ∈ o.keys then o.keys else o.keys ++ [key] := by
  induction o with
  | nil => simp [insert, keys]
  | cons e o ih =>
      obtain ⟨k, v⟩ := e
      simp only [keys] at ih
      by_cases h : k = key
      · simp [insert, keys, h]
      · have hk : key ≠ k := fun e => h e.symm
        by_cases hm : key ∈ o.map Prod.fst
        · simp [insert, keys, h, ih, hm]
        · simp [insert, keys, h, hk, ih, hm]

end Object

namespace Json

/-- The text of a string value. -/
def asString? : Json → Option String
  | .string s => some s
  | _ => none

/-- The entries of an object. -/
def asObject? : Json → Option Object
  | .object o => some o
  | _ => none

/-- The items of a list. -/
def asArray? : Json → Option (List Json)
  | .array items => some items
  | _ => none

/-- The truth value of a boolean. -/
def asBool? : Json → Option Bool
  | .bool b => some b
  | _ => none

/-- The value of an integer that is not negative. -/
def asCount? : Json → Option Nat
  | .number (.integer n) => if 0 ≤ n.val then some n.val.toNat else none
  | _ => none

/-- Whether the value is an object. -/
def isObject (v : Json) : Bool :=
  v.asObject?.isSome

/-- Whether the value is a text. -/
def isString (v : Json) : Bool :=
  v.asString?.isSome

/-- A whole number, as a value; one that does not fit stands as the nearest that does. -/
def ofNat (n : Nat) : Json :=
  .number (.integer ⟨min n 18446744073709551615, by omega, by omega⟩)

mutual

/-- No object within the value has a key twice. -/
def KeysDistinct : Json → Prop
  | .array items => ItemsDistinct items
  | .object entries => (Object.keys entries).Nodup ∧ EntriesDistinct entries
  | _ => True

/-- No object within the items has a key twice. -/
def ItemsDistinct : List Json → Prop
  | [] => True
  | v :: rest => KeysDistinct v ∧ ItemsDistinct rest

/-- No object within the values of the entries has a key twice. -/
def EntriesDistinct : List (String × Json) → Prop
  | [] => True
  | (_, v) :: rest => KeysDistinct v ∧ EntriesDistinct rest

end

mutual

/-- The value with every object rebuilt by insertion: of the entries under one key the first
place and the last value count. -/
def settle : Json → Json
  | .array items => .array (settleItems items)
  | .object entries => .object (Object.ofEntries (settleEntries entries))
  | v => v

/-- Settles every item. -/
def settleItems : List Json → List Json
  | [] => []
  | v :: rest => settle v :: settleItems rest

/-- Settles the value of every entry. -/
def settleEntries : List (String × Json) → List (String × Json)
  | [] => []
  | (k, v) :: rest => (k, settle v) :: settleEntries rest

end

end Json
end Warrant
