import Cordis.Go.Result
import Mathlib.Data.List.Basic
import Mathlib.Logic.Encodable.Basic

/-! # Continuation tokens

A list call that has more to give returns a token: the payload, the kind of the list and a signature of
both, separated by dots. A token is accepted for its kind only and gives back the payload it was made of.
JSON, base64 and the signature are the standard library's; what is used of them is stated with the codec.
-/

namespace Cordis.Cursor

open Go

/-- `ErrInvalid`. -/
inductive CursorError where
  | invalid
deriving DecidableEq, Repr

/-- A codec of one kind of payload: the payload as base64 of its JSON, back again, and the signature under
the codec's secret, in base64 too. Base64 for URLs has no dots. -/
structure Codec (Payload : Type) where
  marshal : Payload → List Char
  unmarshal : List Char → Option Payload
  mac : List Char → List Char → List Char
  marshal_ne_nil : ∀ payload, marshal payload ≠ []
  dot_marshal : ∀ payload, '.' ∉ marshal payload
  mac_ne_nil : ∀ text kind, mac text kind ≠ []
  dot_mac : ∀ text kind, '.' ∉ mac text kind
  unmarshal_marshal : ∀ payload, unmarshal (marshal payload) = some payload

def validateKind (kind : List Char) : Except CursorError Unit := require (kind ≠ [] ∧ '.' ∉ kind) .invalid

def split (token : List Char) : Except CursorError (List Char × List Char × List Char) :=
  match token.splitOn '.' with
  | [p, kind, h] => if p = [] ∨ kind = [] ∨ h = [] then .error .invalid else .ok (p, kind, h)
  | _ => .error .invalid

namespace Codec

variable {Payload : Type} (codec : Codec Payload)

def encode (kind : List Char) (payload : Payload) : Except CursorError (List Char) := do
  validateKind kind
  return codec.marshal payload ++ '.' :: (kind ++ '.' :: codec.mac (codec.marshal payload) kind)

/-- No token is no payload. -/
def decode (kind token : List Char) : Except CursorError (Option Payload) :=
  if token = [] then .ok none
  else do
    validateKind kind
    let (p, k, h) ← split token
    require (k = kind) .invalid
    require (h = codec.mac p k) .invalid
    match codec.unmarshal p with
    | some payload => return some payload
    | none => .error .invalid

variable {codec}

theorem split_segments {p kind h : List Char} (some : p ≠ [] ∧ kind ≠ [] ∧ h ≠ [])
    (plain : '.' ∉ p ∧ '.' ∉ kind ∧ '.' ∉ h) : split (p ++ '.' :: (kind ++ '.' :: h)) = .ok (p, kind, h) := by
  have joined : p ++ '.' :: (kind ++ '.' :: h) = ['.'].intercalate [p, kind, h] := by
    simp [List.intercalate]
  have segments : (p ++ '.' :: (kind ++ '.' :: h)).splitOn '.' = [p, kind, h] := by
    rw [joined]
    exact List.splitOn_intercalate '.' (by simp [plain]) (by simp)
  simp [split, segments, some]

/-- A token gives back its payload. -/
theorem decode_encode {kind token : List Char} {payload : Payload} (encoded : codec.encode kind payload = .ok token) :
    codec.decode kind token = .ok (some payload) := by
  obtain ⟨_, valid, same⟩ := bind_eq_ok.mp encoded
  cases same
  have known := require_eq_ok.mp valid
  have parts := split_segments (p := codec.marshal payload) (h := codec.mac (codec.marshal payload) kind)
    ⟨codec.marshal_ne_nil _, known.1, codec.mac_ne_nil _ _⟩ ⟨codec.dot_marshal _, known.2, codec.dot_mac _ _⟩
  simp [decode, parts, valid, require, codec.unmarshal_marshal]

/-- A codec with the number of the payload in unary and one signature for all. -/
def unary (Payload : Type) [Encodable Payload] : Codec Payload where
  marshal payload := 'A' :: List.replicate (Encodable.encode payload) 'B'
  unmarshal text := Encodable.decode (text.length - 1)
  mac _ _ := ['C']
  marshal_ne_nil _ := List.cons_ne_nil _ _
  dot_marshal payload dotted := by
    rcases List.mem_cons.mp dotted with first | later
    · cases first
    · cases List.eq_of_mem_replicate later
  mac_ne_nil _ _ := List.cons_ne_nil _ _
  dot_mac _ _ := by decide
  unmarshal_marshal payload := by
    rw [List.length_cons, List.length_replicate, Nat.add_sub_cancel, Encodable.encodek]

end Codec

end Cordis.Cursor
