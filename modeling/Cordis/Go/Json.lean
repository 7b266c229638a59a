import Mathlib.Data.Int.Notation
import Mathlib.Data.List.Basic
import Mathlib.Data.Option.Basic

/-! # Decoding JSON into structs

The part of `encoding/json` and `strconv` that decides what a struct accepts and what its fields then
hold. Values are what the parser makes of a text: a number keeps its literal, because integer fields
parse that literal, and an object keeps its members in order, duplicates included.

A member goes to the field whose name it equals up to the folding of letters, if there is one, and
is skipped otherwise. A member that its field does not take makes the whole decoding fail, and a
later member of the same name overwrites an earlier one. `null` leaves a plain field as it is.
-/

namespace Cordis.Go

open List

inductive Json where
  | null
  | bool (value : Bool)
  | number (literal : String)
  | string (text : String)
  | array (items : List Json)
  | object (members : List (String × Json))

/-! ## Integers -/

def maxUint64 : ℕ := 18446744073709551615
def maxInt64 : ℤ := 9223372036854775807
def minInt64 : ℤ := -9223372036854775808
def maxInt32 : ℤ := 2147483647
def minInt32 : ℤ := -2147483648

/-- `ParseUint` in base 10, from the digits read so far; the error says whether the digits so far
were too large, or the next character is no digit. -/
def parseUint : List Char → ℕ → Except Bool ℕ
  | [], read => .ok read
  | char :: rest, read =>
      if char.isDigit then
        let next := read * 10 + (char.toNat - '0'.toNat)
        if maxUint64 < next then .error true else parseUint rest next
      else .error false

/-- The sign and the digits behind it. -/
def splitSign : List Char → Bool × List Char
  | '-' :: digits => (true, digits)
  | '+' :: digits => (false, digits)
  | digits => (false, digits)

/-- `ParseInt` in base 10 with 64 bits. An error carries the value that is returned beside it: the
nearest bound if the number is out of range, and zero otherwise. -/
def parseInt (text : String) : Except ℤ ℤ :=
  let signed := splitSign text.toList
  if signed.2 = [] then .error 0
  else
    match parseUint signed.2 0 with
    | .error false => .error 0
    | .error true => .error (if signed.1 then minInt64 else maxInt64)
    | .ok read =>
      let value : ℤ := if signed.1 then -read else read
      if value < minInt64 then .error minInt64 else if maxInt64 < value then .error maxInt64 else .ok value

/-- The value that `ParseInt` returns, with or without an error. -/
def parsedInt (text : String) : ℤ :=
  match parseInt text with
  | .ok value | .error value => value

theorem parsedInt_of_toOption {text : String} {value : ℤ} (parsed : (parseInt text).toOption = some value) :
    parsedInt text = value := by
  unfold parsedInt
  cases result : parseInt text with
  | error => simp [result, Except.toOption] at parsed
  | ok found => simpa [result, Except.toOption] using parsed

/-! ## Names -/

/-- The representative of the letters that fold to the same one. Two letters outside ASCII fold to
ASCII ones, the long s and the Kelvin sign; the classes of all others hold no ASCII letter. -/
def foldRune (char : Char) : Char :=
  if char.isLower then char.toUpper
  else if char.toNat = 0x17f then 'S'
  else if char.toNat = 0x212a then 'K'
  else char

def foldName (name : String) : List Char := name.toList.map foldRune

/-! ## Fields -/

/-- A field takes a value or rejects it, given what the struct holds so far. -/
structure StructField (σ : Type*) where
  name : String
  decode : Json → σ → Option σ

/-- A plain string field. -/
def stringField {σ : Type*} (name : String) (set : String → σ → σ) : StructField σ where
  name
  decode
    | .null, state => some state
    | .string text, state => some (set text state)
    | _, _ => none

/-- A plain signed integer field whose type has the given range. -/
def intField {σ : Type*} (name : String) (least greatest : ℤ) (set : ℤ → σ → σ) : StructField σ where
  name
  decode
    | .null, state => some state
    | .number literal, state =>
        match parseInt literal with
        | .ok value => if least ≤ value ∧ value ≤ greatest then some (set value state) else none
        | .error _ => none
    | _, _ => none

/-- A field whose type keeps the raw value. -/
def rawField {σ : Type*} (name : String) (set : Json → σ → σ) : StructField σ where
  name
  decode value state := some (set value state)

variable {σ : Type*}

/-- One member of an object. -/
def decodeMember (fields : List (StructField σ)) (state : σ) (member : String × Json) : Option σ :=
  match fields.find? fun field => decide (foldName field.name = foldName member.1) with
  | none => some state
  | some field => field.decode member.2 state

/-- `Unmarshal` into a struct; `null` leaves it as it is. -/
def decodeStruct (fields : List (StructField σ)) (zero : σ) : Json → Option σ
  | .null => some zero
  | .object members => members.foldlM (decodeMember fields) zero
  | _ => none

/-- Whatever the field takes, it leaves this part of the struct alone. -/
def StructField.Keeps {β : Type*} (field : StructField σ) (part : σ → β) : Prop :=
  ∀ json state next, field.decode json state = some next → part next = part state

@[simp]
theorem stringField_name (name : String) (set : String → σ → σ) : (stringField name set).name = name := rfl

@[simp]
theorem intField_name (name : String) (least greatest : ℤ) (set : ℤ → σ → σ) :
    (intField name least greatest set).name = name := rfl

variable {part : σ → β} {β : Type*}

theorem keeps_stringField {set : String → σ → σ}
    (kept : ∀ text state, part (set text state) = part state) (name : String) :
    (stringField name set).Keeps part := by
  intro json state next decoded
  cases json <;> cases decoded
  · rfl
  · exact kept _ _

theorem keeps_intField {set : ℤ → σ → σ}
    (kept : ∀ value state, part (set value state) = part state) (name : String) (least greatest : ℤ) :
    (intField name least greatest set).Keeps part := by
  intro json state next decoded
  cases json with
  | null =>
    cases decoded
    rfl
  | number literal =>
    simp only [intField] at decoded
    split at decoded
    · split at decoded
      · cases decoded
        exact kept _ _
      · cases decoded
    · cases decoded
  | _ => cases decoded

section Members

variable {fields : List (StructField σ)}

variable {member : String × Json}

/-- With names that differ, a member goes to the field it names. -/
theorem decodeMember_eq (distinct : (fields.map fun field => foldName field.name).Nodup) {field : StructField σ}
    (listed : field ∈ fields) (named : foldName field.name = foldName member.1)
    (state : σ) : decodeMember fields state member = field.decode member.2 state := by
  induction fields with
  | nil => cases listed
  | cons first rest ih =>
    rw [map_cons, nodup_cons] at distinct
    rcases mem_cons.mp listed with rfl | later
    · rw [decodeMember, find?_cons_of_pos (by simpa using named)]
    · have other : foldName first.name ≠ foldName member.1 := fun same =>
        distinct.1 (same ▸ named ▸ mem_map_of_mem (f := fun field => foldName field.name) later)
      rw [decodeMember, find?_cons_of_neg (by simpa using other)]
      exact ih distinct.2 later

/-- A member is taken exactly if the field it names takes it. -/
theorem isSome_decodeMember (distinct : (fields.map fun field => foldName field.name).Nodup) (state : σ)
    (member : String × Json) :
    (decodeMember fields state member).isSome = true ↔
      ∀ field ∈ fields, foldName field.name = foldName member.1 →
        (field.decode member.2 state).isSome = true := by
  constructor
  · intro taken field listed named
    rwa [← decodeMember_eq distinct listed named]
  · intro takes
    by_cases names : ∃ field ∈ fields, foldName field.name = foldName member.1
    · obtain ⟨field, listed, named⟩ := names
      rw [decodeMember_eq distinct listed named]
      exact takes field listed named
    · rw [decodeMember, find?_eq_none.mpr fun field listed => by simpa using fun named => names ⟨field, listed, named⟩]
      rfl

/-- A part of the struct that only one field sets is changed by members of that name only. -/
theorem decodeMember_keeps {name : List Char}
    (keeps : ∀ field ∈ fields, foldName field.name ≠ name → field.Keeps part)
    (other : foldName member.1 ≠ name) {state next : σ}
    (decoded : decodeMember fields state member = some next) : part next = part state := by
  unfold decodeMember at decoded
  split at decoded
  · cases decoded
    rfl
  · next field found =>
    have named : foldName field.name = foldName member.1 := by simpa using find?_some found
    exact keeps field (mem_of_find?_eq_some found) (named ▸ other) _ _ _ decoded

end Members

/-- A fold that may fail succeeds exactly if every element is acceptable, when what is acceptable
does not depend on the state. -/
theorem isSome_foldlM_iff {α : Type*} {step : σ → α → Option σ} {accepts : α → Prop}
    (uniform : ∀ state item, (step state item).isSome = true ↔ accepts item) (items : List α) (state : σ) :
    (items.foldlM step state).isSome = true ↔ ∀ item ∈ items, accepts item := by
  induction items generalizing state with
  | nil => simp
  | cons item rest ih =>
    rw [foldlM_cons, forall_mem_cons, ← uniform state item]
    cases stepped : step state item with
    | none => simp
    | some next => simpa using ih next

/-- Two folds over the same list keep a relation that every step keeps. -/
theorem foldlM_rel {τ α : Type*} {first : σ → α → Option σ} {second : τ → α → Option τ} {rel : σ → τ → Prop}
    (kept : ∀ {before before' item after after'}, rel before before' → first before item = some after →
      second before' item = some after' → rel after after')
    {items : List α} {before after : σ} {before' after' : τ} (start : rel before before')
    (run : items.foldlM first before = some after) (run' : items.foldlM second before' = some after') :
    rel after after' := by
  induction items generalizing before before' with
  | nil =>
    cases run
    cases run'
    exact start
  | cons item rest ih =>
    rw [foldlM_cons] at run run'
    obtain ⟨middle, stepped, run⟩ := Option.bind_eq_some_iff.mp run
    obtain ⟨middle', stepped', run'⟩ := Option.bind_eq_some_iff.mp run'
    exact ih (kept start stepped stepped') run run'

end Cordis.Go
