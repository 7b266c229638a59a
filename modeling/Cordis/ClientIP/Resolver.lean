import Mathlib.Data.List.Basic

/-! # Client addresses across trusted proxies

The resolver takes the address of a request from `X-Forwarded-For` only when the immediate peer is a
trusted proxy. The values of that header are split at their commas and parsed as a whole before the
walk from right to left begins, so a part no proxy vouches for, far to the left of the address that
decides, can still keep the walk from happening.
-/

namespace Cordis.ClientIP

abbrev Text := List Char

/-- What the resolver calls of `strings`, `net` and `net/netip`. -/
structure Netip (Addr Prefix : Type) where
  trimSpace : Text → Text
  splitHostPort : Text → Option (Text)
  parseAddr : Text → Except String Addr
  unmap : Addr → Addr
  contains : Prefix → Addr → Bool

/-- The two headers the resolver reads: every value of `X-Forwarded-For` and the first of `X-Real-IP`. -/
structure Header where
  forwardedFor : List Text
  realIP : Text := []

variable {Addr Prefix : Type} (net : Netip Addr Prefix) (trustedProxies : List Prefix)

def isTrusted (addr : Addr) : Bool :=
  trustedProxies.any (net.contains · addr)

def parseAddress (value : Text) : Except String Addr := do
  let value := net.trimSpace value
  if value = [] then
    throw "peer address is required"
  return net.unmap (← net.parseAddr ((net.splitHostPort value).getD value))

/-- The address one part of a forwarded header names, if it is well formed. -/
def parsePart (part : Text) : Option Addr :=
  (net.parseAddr (net.trimSpace part)).toOption.map net.unmap

/-- The parts of all header values, in the order in which they are parsed. -/
def forwardedParts (values : List Text) : List Text :=
  values.flatMap (List.splitOn ',')

/-- The addresses of all parts; one malformed part fails the whole header. -/
def parseForwardedFor (values : List Text) : Option (List Addr) :=
  ((forwardedParts values).mapM (parsePart net)).filter fun addresses => 0 < addresses.length

def resolveRealIP (peer : Addr) (realIP : Text) : Addr :=
  if net.trimSpace realIP = [] then peer else (parsePart net realIP).getD peer

def resolve (peerAddress : Text) (header : Header) : Except String Addr := do
  let peer ← parseAddress net peerAddress
  if !isTrusted net trustedProxies peer then
    return peer
  if header.forwardedFor ≠ [] then
    match parseForwardedFor net header.forwardedFor with
    | none => return peer
    | some addresses =>
      match addresses.reverse.find? (!isTrusted net trustedProxies ·) with
      | some addr => return addr
      | none => return addresses.head?.getD (resolveRealIP net peer header.realIP)
  return resolveRealIP net peer header.realIP

/-- Every part of the forwarded header is an address. -/
def Header.wellFormed (header : Header) : Bool :=
  (forwardedParts header.forwardedFor).all fun part => (parsePart net part).isSome

/-- The parts parse exactly when each of them does, and then to their addresses. -/
theorem mapM_parsePart (parts : List Text) : parts.mapM (parsePart net) =
    if parts.all fun part => (parsePart net part).isSome then some (parts.filterMap (parsePart net)) else none := by
  induction parts with
  | nil => rfl
  | cons part parts ih =>
    rw [List.mapM_cons, ih, List.all_cons]
    cases parsed : parsePart net part with
    | none => rfl
    | some addr => cases parts.all fun part => (parsePart net part).isSome <;> simp [parsed]

/-- A part names the rightmost untrusted address: every well-formed part after it names a proxy. -/
structure Rightmost (part : Text) (right : List Text) (addr : Addr) : Prop where
  parsed : parsePart net part = some addr
  untrusted : isTrusted net trustedProxies addr = false
  proxies : ∀ other ∈ right.filterMap (parsePart net), isTrusted net trustedProxies other

variable {net trustedProxies} {part : Text} {right : List Text} {addr peer : Addr}
  {peerAddress : Text}

/-- The walk over the parsed addresses stops at the rightmost untrusted one. -/
theorem Rightmost.find? (rightmost : Rightmost net trustedProxies part right addr) (left : List Text) :
    ((left ++ part :: right).filterMap (parsePart net)).reverse.find? (!isTrusted net trustedProxies ·) =
      some addr := by
  have passed : (right.filterMap (parsePart net)).reverse.find? (!isTrusted net trustedProxies ·) = none := by
    simpa using rightmost.proxies
  simp [rightmost.parsed, passed, rightmost.untrusted]

/-- A trusted peer's header resolves to its rightmost untrusted address exactly when no part of it is
malformed. Otherwise the answer is the peer. -/
theorem Rightmost.resolve_iff (rightmost : Rightmost net trustedProxies part right addr)
    (arrived : parseAddress net peerAddress = .ok peer) (proxy : isTrusted net trustedProxies peer)
    {header : Header} {left : List Text} (parts : forwardedParts header.forwardedFor = left ++ part :: right) :
    resolve net trustedProxies peerAddress header = .ok addr ↔ header.wellFormed net := by
  have present : header.forwardedFor ≠ [] := by
    intro empty
    simp [empty, forwardedParts] at parts
  have walked := rightmost.find? left
  rw [← parts] at walked
  have found : 0 < ((forwardedParts header.forwardedFor).filterMap (parsePart net)).length := by
    refine List.length_pos_iff.mpr fun empty => ?_
    simp [empty] at walked
  simp only [resolve, arrived, parseForwardedFor, mapM_parsePart, Header.wellFormed]
  cases (forwardedParts header.forwardedFor).all fun part => (parsePart net part).isSome with
  | false =>
    have apart : peer ≠ addr := by
      rintro rfl
      simp [rightmost.untrusted] at proxy
    simp [bind, Except.bind, pure, Except.pure, proxy, present, apart]
  | true => simp [bind, Except.bind, pure, Except.pure, Option.filter, proxy, present, found, walked]

/-- Two headers of a trusted peer that agree from their rightmost untrusted address on both resolve to
that address exactly when neither holds a malformed part. -/
theorem resolve_ignores_left_iff (rightmost : Rightmost net trustedProxies part right addr)
    (arrived : parseAddress net peerAddress = .ok peer) (proxy : isTrusted net trustedProxies peer)
    {first second : Header} {left other : List Text}
    (parts : forwardedParts first.forwardedFor = left ++ part :: right)
    (others : forwardedParts second.forwardedFor = other ++ part :: right) :
    (resolve net trustedProxies peerAddress first = .ok addr ∧
      resolve net trustedProxies peerAddress second = .ok addr) ↔
      first.wellFormed net ∧ second.wellFormed net :=
  and_congr (rightmost.resolve_iff arrived proxy parts) (rightmost.resolve_iff arrived proxy others)

/-- The package at dotted decimal addresses, with networks of whole octets. -/
def ipv4 : Netip (List ℕ) (List ℕ) where
  trimSpace text := ((text.dropWhile Char.isWhitespace).reverse.dropWhile Char.isWhitespace).reverse
  splitHostPort text := (text.splitOn ':').head?.filter fun host => host.length < text.length
  parseAddr text :=
    let octets := (text.splitOn '.').map fun digits =>
      if digits ≠ [] ∧ digits.all Char.isDigit ∧ (digits.length = 1 ∨ digits.head? ≠ some '0') then
        digits.foldl (fun value digit => 10 * value + (digit.toNat - 48)) 0 else 256
    if octets.length = 4 ∧ ∀ octet ∈ octets, octet < 256 then .ok octets else .error "unable to parse IP"
  unmap := id
  contains network addr := network.isPrefixOf addr

theorem rightmost_client : Rightmost ipv4 [[10]] " 203.0.113.9".toList [] [203, 0, 113, 9] := by
  refine ⟨?_, ?_, ?_⟩ <;> decide

/-- Text a client adds in front of the address that the proxy appends hides that address. -/
theorem malformed_left_hides_client :
    Rightmost ipv4 [[10]] " 203.0.113.9".toList [] [203, 0, 113, 9] ∧
      resolve ipv4 [[10]] "10.0.0.1:443".toList ⟨["8.8.8.8, 203.0.113.9".toList], []⟩ = .ok [203, 0, 113, 9] ∧
      resolve ipv4 [[10]] "10.0.0.1:443".toList ⟨["unknown, 203.0.113.9".toList], []⟩ = .ok [10, 0, 0, 1] := by
  refine ⟨rightmost_client, ?_, ?_⟩ <;> decide

/-- Well-formed addresses on the left, also on a line of their own, change nothing. -/
theorem spoofed_left_ignored :
    resolve ipv4 [[10]] "10.0.0.1:443".toList ⟨["8.8.8.8, 203.0.113.9".toList], []⟩ = .ok [203, 0, 113, 9] ∧
      resolve ipv4 [[10]] "10.0.0.1:443".toList ⟨["10.0.0.7".toList, " 203.0.113.9".toList], []⟩ =
        .ok [203, 0, 113, 9] := by
  have arrived : parseAddress ipv4 "10.0.0.1:443".toList = .ok [10, 0, 0, 1] := by decide
  have parts : forwardedParts ["8.8.8.8, 203.0.113.9".toList] = ["8.8.8.8".toList] ++ [" 203.0.113.9".toList] := by
    decide
  have others : forwardedParts ["10.0.0.7".toList, " 203.0.113.9".toList] =
      ["10.0.0.7".toList] ++ [" 203.0.113.9".toList] := by decide
  exact (resolve_ignores_left_iff rightmost_client arrived rfl parts others).mpr (by decide)

end Cordis.ClientIP
