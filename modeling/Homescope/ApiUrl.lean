import Homescope.Strings
import Mathlib.Data.List.TakeWhile

/-! The URL policy of the provisioning tool (`provision/src/store.rs`): https,
or http to a loopback host that is cut out of the string by hand. -/

namespace Homescope

inductive StoreError
  | noHome
  | permissions
  | read
  | write
  | parse
  | invalidFilename
  | serialize
  | noProfile
  | unknownProfile (name : String)
  | noCredentials (name : String)
  | noEnvToken
  | insecureUrl (url : Text)
  | notHttpUrl (url : Text)
  deriving DecidableEq, Repr

/-! ### IP addresses -/

inductive IpAddr
  | v4 (octets : List Nat)
  | v6 (segments : List Nat)
  deriving DecidableEq, Repr

namespace IpAddr

def isLoopback : IpAddr → Bool
  | v4 octets => octets.head? == some 127
  | v6 segments => segments == [0, 0, 0, 0, 0, 0, 0, 1]

def digit (c : Char) : Nat := c.toNat - '0'.toNat

/-- Up to three digits, none of them a leading zero. -/
def octet (s : Text) : Option Nat :=
  let n := s.foldl (fun n c => 10 * n + digit c) 0
  if s ≠ [] ∧ s.length ≤ 3 ∧ s.all isAsciiDigit ∧ (s.head? ≠ some '0' ∨ s.length = 1) ∧ n ≤ 255 then
    some n
  else none

def parseV4 (s : Text) : Option (List Nat) :=
  let parts := s.splitOn '.'
  if parts.length = 4 then parts.mapM octet else none

def hexDigit (c : Char) : Option Nat :=
  if isAsciiDigit c then some (digit c)
  else if 'a' ≤ c ∧ c ≤ 'f' then some (c.toNat - 'a'.toNat + 10)
  else if 'A' ≤ c ∧ c ≤ 'F' then some (c.toNat - 'A'.toNat + 10)
  else none

def segment (s : Text) : Option Nat :=
  if s ≠ [] ∧ s.length ≤ 4 then (s.mapM hexDigit).map (·.foldl (fun n d => 16 * n + d) 0) else none

/-- The segments of one side of a `::`; the last two may be an IPv4 address. -/
def segments (allowV4 : Bool) (s : Text) : Option (List Nat) :=
  if s = [] then some []
  else
    let parts := s.splitOn ':'
    match parts.mapM segment with
    | some segments => some segments
    | none => do
      let front ← parts.dropLast.mapM segment
      match parts.getLast?.bind parseV4 with
      | some [a, b, c, d] =>
        if allowV4 then some (front ++ [256 * a + b, 256 * c + d]) else none
      | _ => none

def parseV6 (s : Text) : Option (List Nat) :=
  match splitOnce [':', ':'] s with
  | none => do
    let all ← segments true s
    if all.length = 8 then some all else none
  | some (head, tail) => do
    let front ← segments false head
    let back ← segments true tail
    if front.length + back.length ≤ 7 then
      some (front ++ List.replicate (8 - front.length - back.length) 0 ++ back)
    else none

def parse (s : Text) : Option IpAddr :=
  match parseV4 s with
  | some octets => some (v4 octets)
  | none => (parseV6 s).map v6

example : parse "127.1.2.3".toList = some (v4 [127, 1, 2, 3]) := by decide +kernel
example : parse "1::ffff:10.0.0.1".toList = some (v6 [1, 0, 0, 0, 0, 0xffff, 0xa00, 1]) := by
  decide +kernel
example : parse "127.0.0.01".toList = none := by decide +kernel

end IpAddr

/-! ### The policy -/

/-- What ends the authority of a URL. -/
def isDelimiter (c : Char) : Bool := c == '/' || c == '?' || c == '#'

/-- The text between the brackets that a string starts with. -/
def bracketed : Text → Option Text
  | '[' :: rest => if ']' ∈ rest then some (rest.takeWhile (· ≠ ']')) else none
  | _ => none

def hostOf (authority : Text) : Text :=
  let authority := authority.takeWhile (!isDelimiter ·)
  match bracketed authority with
  | some host => host
  | none =>
    match rsplitOnce ':' authority with
    | none => authority
    | some (host, port) => if port.all isAsciiDigit then host else authority

def isLoopback (authority : Text) : Bool :=
  let host := hostOf authority
  if eqIgnoreAsciiCase host "localhost".toList || host == "::1".toList then true
  else (IpAddr.parse host).any IpAddr.isLoopback

def parseUrl (url : Text) : Except StoreError Text :=
  let url := trimEndMatches '/' (trim url)
  match splitOnce "://".toList url with
  | none => .error (.notHttpUrl url)
  | some (scheme, authority) =>
    if scheme = "https".toList ∧ authority ≠ [] then .ok url
    else if scheme = "http".toList then
      if isLoopback authority then .ok url else .error (.insecureUrl url)
    else .error (.notHttpUrl url)

example : parseUrl "http://LocalHost:7890/".toList = .ok "http://LocalHost:7890".toList := by
  decide +kernel
example : parseUrl "http://localhost@example.com".toList =
    .error (.insecureUrl "http://localhost@example.com".toList) := by decide +kernel

/-! ### The host of a URL in its grammar -/

/-- `localhost` in any letter case, or a loopback address. -/
def isLoopbackHost (host : Text) : Bool :=
  eqIgnoreAsciiCase host "localhost".toList || (IpAddr.parse host).any IpAddr.isLoopback

/-- Up to the first `/`, `?` or `#`. -/
def authorityOf (rest : Text) : Text := rest.takeWhile (!isDelimiter ·)

/-- What the userinfo leaves, which goes up to the last `@`. -/
def afterUserinfo (authority : Text) : Text :=
  match rsplitOnce '@' authority with
  | none => authority
  | some (_, rest) => rest

/-- Nothing, or a colon and digits. -/
def isPort : Text → Bool
  | [] => true
  | c :: port => c == ':' && port.all isAsciiDigit

/-- A bracketed IPv6 literal or a name, with an optional port and nothing behind. -/
def hostPort : Text → Option Text
  | '[' :: rest =>
    let literal := rest.takeWhile (· ≠ ']')
    if ']' ∈ rest ∧ (IpAddr.parseV6 literal).isSome ∧
      isPort ((rest.dropWhile (· ≠ ']')).drop 1) then some literal else none
  | s =>
    if isPort (s.dropWhile (· ≠ ':')) then some (s.takeWhile (· ≠ ':')) else none

/-- The host of what follows `://`. -/
def urlHost (rest : Text) : Option Text := hostPort (afterUserinfo (authorityOf rest))

theorem isLoopback_eq (authority : Text) :
    isLoopback authority = isLoopbackHost (hostOf authority) := by
  have hone : isLoopbackHost "::1".toList = true := by decide +kernel
  rw [isLoopback]
  by_cases hlocal : eqIgnoreAsciiCase (hostOf authority) "localhost".toList = true
  · rw [isLoopbackHost, hlocal, if_pos (Bool.true_or _), Bool.true_or]
  · by_cases hv6 : hostOf authority = "::1".toList
    · rw [hv6, hone]
      rfl
    · have hne : (hostOf authority == "::1".toList) = false := beq_eq_false_iff_ne.mpr hv6
      have hf : eqIgnoreAsciiCase (hostOf authority) "localhost".toList = false :=
        Bool.eq_false_iff.mpr hlocal
      rw [isLoopbackHost, hf, hne]
      rfl

theorem rsplitOnce_eq_none {c : Char} {s : Text} (h : c ∉ s) : rsplitOnce c s = none := by
  induction s with
  | nil => rfl
  | cons d s ih =>
    rw [List.mem_cons, not_or] at h
    rw [rsplitOnce, ih h.2, if_neg (fun hd => h.1 hd.symm)]

theorem rsplitOnce_append {c : Char} {b : Text} (h : c ∉ b) (a : Text) :
    rsplitOnce c (a ++ c :: b) = some (a, b) := by
  induction a with
  | nil => rw [List.nil_append, rsplitOnce, rsplitOnce_eq_none h, if_pos rfl]
  | cons d a ih => rw [List.cons_append, rsplitOnce, ih]

theorem exists_last {c : Char} {s : Text} (h : c ∈ s) : ∃ a b, s = a ++ c :: b ∧ c ∉ b := by
  obtain ⟨a, b, hs, ha⟩ := List.eq_append_cons_of_mem (List.mem_reverse.mpr h)
  refine ⟨b.reverse, a.reverse, ?_, by simpa using ha⟩
  rw [← List.reverse_reverse s, hs]
  simp

theorem afterUserinfo_of_not_mem {s : Text} (h : '@' ∉ s) : afterUserinfo s = s := by
  rw [afterUserinfo, rsplitOnce_eq_none h]

theorem afterUserinfo_subset (s : Text) : afterUserinfo s ⊆ s := by
  by_cases h : '@' ∈ s
  · obtain ⟨a, b, rfl, hb⟩ := exists_last h
    rw [afterUserinfo, rsplitOnce_append hb]
    intro c hc
    simp [hc]
  · rw [afterUserinfo_of_not_mem h]
    exact List.Subset.refl s

theorem authorityOf_of_forall {s : Text} (h : ∀ c ∈ s, isDelimiter c = false) :
    authorityOf s = s := by
  rw [authorityOf, List.takeWhile_eq_self_iff]
  intro c hc
  simp [h c hc]

theorem isDelimiter_of_mem {rest : Text} {c : Char} (h : c ∈ authorityOf rest) :
    isDelimiter c = false := by
  simpa using List.mem_takeWhile_imp h

theorem hostOf_authorityOf (rest : Text) : hostOf (authorityOf rest) = hostOf rest := by
  have hh : authorityOf (authorityOf rest) = authorityOf rest :=
    authorityOf_of_forall fun c hc => isDelimiter_of_mem hc
  simp only [authorityOf] at hh
  simp only [hostOf, authorityOf, hh]

/-- Where the grammar finds a host, the cut finds the same. -/
theorem hostOf_of_hostPort {s host : Text} (hs : ∀ c ∈ s, isDelimiter c = false)
    (h : hostPort s = some host) : hostOf s = host := by
  have hself : s.takeWhile (!isDelimiter ·) = s := authorityOf_of_forall hs
  simp only [hostOf, hself]
  rw [hostPort.eq_def] at h
  split at h
  · rename_i rest
    dsimp only at h
    split at h
    · rename_i hlit
      rw [bracketed, if_pos hlit.1]
      exact Option.some.inj h
    · cases h
  · rename_i hbracket
    have hnone : bracketed s = none := by
      rw [bracketed.eq_def]
      split
      · exact absurd rfl (hbracket _)
      · rfl
    rw [hnone]
    have hsplit := List.takeWhile_append_dropWhile (p := (· ≠ ':')) (l := s)
    cases hport : s.dropWhile (· ≠ ':') with
    | nil =>
      rw [hport, List.append_nil] at hsplit
      have hnot : ':' ∉ s := by
        rw [← hsplit]
        intro hm
        simpa using List.mem_takeWhile_imp hm
      have hp : isPort [] = true := rfl
      rw [hport, if_pos hp, hsplit] at h
      rw [rsplitOnce_eq_none hnot]
      exact Option.some.inj h
    | cons c port =>
      have hc : c = ':' := by
        have hhead := List.head?_dropWhile_not (· ≠ ':') s
        rw [hport, List.head?_cons] at hhead
        simpa using hhead
      subst hc
      rw [hport] at h hsplit
      split at h
      · rename_i hp
        have hdigits : port.all isAsciiDigit = true := by simpa [isPort] using hp
        have hnot : ':' ∉ port := fun hm => by
          have hd := List.all_eq_true.mp hdigits _ hm
          revert hd
          decide
        obtain rfl := Option.some.inj h
        generalize s.takeWhile (· ≠ ':') = name at hsplit
        rw [← hsplit, rsplitOnce_append hnot]
        simp only [hdigits, if_true]
      · cases h

/-- An accepted http URL has a loopback host exactly if the grammar finds a host
behind the userinfo, and the policy accepts what follows the userinfo. -/
theorem parseUrl_http_host {u rest : Text} (h : parseUrl u = .ok ("http://".toList ++ rest)) :
    (∃ host, urlHost rest = some host ∧ isLoopbackHost host = true) ↔
      (hostPort (afterUserinfo (authorityOf rest))).isSome = true ∧
        ('@' ∈ authorityOf rest → isLoopback (afterUserinfo (authorityOf rest)) = true) := by
  have haccept : isLoopback rest = true := by
    have hsplit : splitOnce "://".toList ("http://".toList ++ rest) =
        some ("http".toList, rest) := rfl
    have hne : "http".toList ≠ "https".toList := by decide
    rw [parseUrl.eq_def] at h
    generalize trimEndMatches '/' (trim u) = url at h
    dsimp only at h
    split at h
    · cases h
    · rename_i scheme authority hs
      split at h
      · rename_i hhttps
        cases h
        rw [hsplit, Option.some.injEq, Prod.mk.injEq] at hs
        exact absurd (hs.1.trans hhttps.1) hne
      · split at h
        · split at h
          · rename_i hloop
            cases h
            rw [hsplit, Option.some.injEq, Prod.mk.injEq] at hs
            exact hs.2 ▸ hloop
          · cases h
        · cases h
  have hdelim : ∀ c ∈ afterUserinfo (authorityOf rest), isDelimiter c = false := fun c hc =>
    isDelimiter_of_mem (afterUserinfo_subset _ hc)
  constructor
  · rintro ⟨host, hhost, hloop⟩
    refine ⟨Option.isSome_iff_exists.mpr ⟨host, hhost⟩, fun _ => ?_⟩
    rw [isLoopback_eq, hostOf_of_hostPort hdelim hhost, hloop]
  · rintro ⟨hsome, hafter⟩
    obtain ⟨host, hhost⟩ := Option.isSome_iff_exists.mp hsome
    refine ⟨host, hhost, ?_⟩
    rw [← hostOf_of_hostPort hdelim hhost]
    by_cases hat : '@' ∈ authorityOf rest
    · rw [← isLoopback_eq, hafter hat]
    · rw [afterUserinfo_of_not_mem hat, hostOf_authorityOf, ← isLoopback_eq, haccept]

theorem parseUrl_http_host_localhost :
    (∃ host, urlHost "localhost:7890".toList = some host ∧ isLoopbackHost host = true) ↔
      (hostPort (afterUserinfo (authorityOf "localhost:7890".toList))).isSome = true ∧
        ('@' ∈ authorityOf "localhost:7890".toList →
          isLoopback (afterUserinfo (authorityOf "localhost:7890".toList)) = true) :=
  parseUrl_http_host (u := "http://localhost:7890/".toList) (by decide +kernel)

/-- The cut stops at the bracket, and the grammar goes on to the `@`. -/
theorem not_parseUrl_http_host :
    ¬∀ u rest, parseUrl u = .ok ("http://".toList ++ rest) →
      ∃ host, urlHost rest = some host ∧ isLoopbackHost host = true := by
  intro hall
  have haccept : parseUrl "http://[::1]@example.com".toList =
      .ok ("http://".toList ++ "[::1]@example.com".toList) := by decide +kernel
  have hhost : urlHost "[::1]@example.com".toList = some "example.com".toList := by decide +kernel
  have hremote : isLoopbackHost "example.com".toList = false := by decide +kernel
  obtain ⟨host, hfound, hloop⟩ := hall _ _ haccept
  rw [hhost, Option.some.injEq] at hfound
  rw [← hfound, hremote] at hloop
  cases hloop

end Homescope
