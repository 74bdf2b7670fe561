import Homescope.DeviceRoutes
import Homescope.FleetListing
import Homescope.HexKeys

/-! The admin token of the API and the check of a request's bearer
(`api/src/http/auth.rs`), with what `login` reads for it
(`provision/src/commands.rs`). -/

namespace Homescope

abbrev minAdminTokenLen : Nat := 32

structure AdminToken where
  token : Text
  long : minAdminTokenLen ≤ (utf8 token).length
  trimmed : trim token = token

namespace AdminToken

inductive LoadError
  | unreadable
  | empty
  | tooShort
  deriving DecidableEq, Repr

/-- `contents` is what reading the file gave. -/
def load (contents : Option (List UInt8)) : Except LoadError AdminToken :=
  match contents.bind fromUtf8 with
  | none => .error .unreadable
  | some contents =>
    match (lines contents).head? with
    | none => .error .empty
    | some line =>
      if h : (utf8 (trim line)).length < minAdminTokenLen then .error .tooShort
      else .ok ⟨trim line, not_lt.mp h, trim_trim line⟩

def verify (token : AdminToken) (other : Text) : Bool := utf8 token.token == utf8 other

end AdminToken

/-- The bytes that `HeaderValue::to_str` accepts. -/
def visibleByte (b : UInt8) : Bool := (32 ≤ b && b < 127) || b == 9

def headerToStr (value : List UInt8) : Option Text :=
  if value.all visibleByte then some (value.map fun b => Char.ofNat b.toNat) else none

def bearerScheme : Text := "Bearer ".toList

def requireBearer (token : AdminToken) (authorization : Option (List UInt8)) : Except ApiError Unit :=
  match authorization with
  | none => .error .unauthorized
  | some value =>
    match headerToStr value with
    | none => .error .unauthorized
    | some bearer =>
      if bearerScheme.isPrefixOf bearer then
        if token.verify (Output.trimEnd (bearer.drop bearerScheme.length)) then .ok ()
        else .error .unauthorized
      else .error .unauthorized

/-- `read_token`, of the line that was read. -/
def readToken (raw : Text) : Option Text :=
  let token := trim raw
  if token = [] then none else some token

/-! ### Header values -/

/-- A blank, a graphic character of ASCII, or a tab. -/
def Visible (c : Char) : Prop := 32 ≤ c.toNat ∧ c.toNat < 127 ∨ c.toNat = 9

theorem utf8EncodeChar_ofNat : ∀ n < 128, String.utf8EncodeChar (Char.ofNat n) = [n.toUInt8] ∧
    (Char.ofNat n).toNat = n := by
  decide

theorem utf8_visible {c : Char} (h : Visible c) :
    String.utf8EncodeChar c = [c.toNat.toUInt8] ∧ visibleByte c.toNat.toUInt8 = true := by
  have hbound : c.toNat < 128 := by
    rcases h with h | h <;> omega
  have hvalue : c.toNat.toUInt8.toNat = c.toNat := by simp; omega
  have hencode := (utf8EncodeChar_ofNat c.toNat hbound).1
  rw [Char.ofNat_toNat] at hencode
  refine ⟨hencode, ?_⟩
  simp only [visibleByte, Bool.or_eq_true, Bool.and_eq_true, decide_eq_true_eq, beq_iff_eq,
    UInt8.le_iff_toNat_le, UInt8.lt_iff_toNat_lt, ← UInt8.toNat_inj, hvalue]
  rcases h with h | h
  · exact .inl ⟨h.1, h.2⟩
  · exact .inr h

theorem visibleByte_spec {b : UInt8} (h : visibleByte b = true) :
    String.utf8EncodeChar (Char.ofNat b.toNat) = [b] ∧ Visible (Char.ofNat b.toNat) := by
  simp only [visibleByte, Bool.or_eq_true, Bool.and_eq_true, decide_eq_true_eq, beq_iff_eq,
    UInt8.le_iff_toNat_le, UInt8.lt_iff_toNat_lt, ← UInt8.toNat_inj] at h
  have hbytes : 32 ≤ b.toNat ∧ b.toNat < 127 ∨ b.toNat = 9 := h
  have hbound : b.toNat < 128 := by omega
  obtain ⟨hencode, hvalue⟩ := utf8EncodeChar_ofNat b.toNat hbound
  refine ⟨by rw [hencode]; simp, ?_⟩
  rw [Visible, hvalue]
  exact hbytes

theorem headerToStr_utf8 {s : Text} (h : ∀ c ∈ s, Visible c) : headerToStr (utf8 s) = some s := by
  have hall : (utf8 s).all visibleByte = true ∧ (utf8 s).map (fun b => Char.ofNat b.toNat) = s := by
    induction s with
    | nil => exact ⟨rfl, rfl⟩
    | cons c s ih =>
      obtain ⟨hencode, hbyte⟩ := utf8_visible (h c List.mem_cons_self)
      obtain ⟨hall, hmap⟩ := ih fun d hd => h d (List.mem_cons_of_mem c hd)
      have hc : c.toNat.toUInt8.toNat = c.toNat := by
        rcases h c List.mem_cons_self with h | h <;> simp <;> omega
      rw [utf8_cons, hencode, List.singleton_append]
      refine ⟨?_, ?_⟩
      · rw [List.all_cons, hbyte, hall]
        rfl
      · rw [List.map_cons, hmap, hc, Char.ofNat_toNat]
  rw [headerToStr, if_pos hall.1, hall.2]

theorem headerToStr_eq_some {value : List UInt8} {s : Text} :
    headerToStr value = some s ↔ value = utf8 s ∧ ∀ c ∈ s, Visible c := by
  constructor
  · intro h
    rw [headerToStr] at h
    split at h
    · rename_i hall
      cases h
      induction value with
      | nil => exact ⟨rfl, by simp⟩
      | cons b value ih =>
        rw [List.all_cons, Bool.and_eq_true] at hall
        obtain ⟨hencode, hvisible⟩ := visibleByte_spec hall.1
        obtain ⟨hvalue, hrest⟩ := ih hall.2
        rw [List.map_cons, utf8_cons, hencode, ← hvalue]
        exact ⟨rfl, List.forall_mem_cons.mpr ⟨hvisible, hrest⟩⟩
    · cases h
  · rintro ⟨rfl, h⟩
    exact headerToStr_utf8 h

/-! ### Blanks at the end -/

theorem trimEnd_eq_iff {s m : Text} (hm : trim m = m) : Output.trimEnd s = m ↔
    ∃ after, s = m ++ after ∧ ∀ c ∈ after, isWhitespace c = true := by
  have hdrop : Output.trimEnd s = s.rdropWhile isWhitespace := rfl
  rw [hdrop]
  constructor
  · rintro rfl
    have hsplit := List.rdropWhile_append_rtakeWhile (p := isWhitespace) (l := s)
    exact ⟨_, hsplit.symm, fun c hc => List.mem_takeWhile_imp (List.mem_reverse.mp hc)⟩
  · rintro ⟨after, rfl, hafter⟩
    have hself : m.rdropWhile isWhitespace = m := by
      rw [List.rdropWhile_eq_self_iff]
      intro hne
      simp [(trim_eq_self_iff.mp hm).2 _ (List.getLast?_eq_some_getLast hne)]
    rw [List.rdropWhile, List.reverse_append, List.dropWhile_append_of_pos]
    · exact hself
    · exact fun c hc => hafter c (List.mem_reverse.mp hc)

theorem visible_whitespace {c : Char} (h : Visible c) : isWhitespace c = true ↔ c = ' ' ∨ c = '\t' := by
  rw [← Char.toNat_inj, ← Char.toNat_inj]
  change isWhitespace c = true ↔ c.toNat = 32 ∨ c.toNat = 9
  simp only [isWhitespace, Bool.or_eq_true, Bool.and_eq_true, decide_eq_true_eq, beq_iff_eq]
  rcases h with h | h <;> omega

theorem trim_append_blanks {s t : Text} (h : ∀ c ∈ t, isWhitespace c = true) :
    trim (s ++ t) = trim s := by
  obtain ⟨before, after, hs, hbefore, hafter⟩ := exists_trim s
  have hsplit : s ++ t = before ++ (trim s ++ (after ++ t)) := by
    rw [← List.append_assoc (trim s), ← List.append_assoc before, ← hs]
  rw [hsplit]
  refine trim_append_append hbefore (trim_trim s) fun c hc => ?_
  rcases List.mem_append.mp hc with hc | hc
  · exact hafter c hc
  · exact h c hc

theorem stripSuffix_eq_some {c : Char} {s t : Text} (h : stripSuffix c s = some t) : s = t ++ [c] := by
  rw [stripSuffix] at h
  split at h
  · rename_i hlast
    cases h
    obtain ⟨hne, hlast⟩ := List.mem_getLast?_eq_getLast hlast
    rw [hlast, List.dropLast_append_getLast]
  · cases h

/-! ### Who is let in -/

/-- The value that a client with the token sends, with blanks after it. -/
def Bears (token : Text) (authorization : Option (List UInt8)) : Prop :=
  (∀ c ∈ token, Visible c) ∧ ∃ blanks : Text, (∀ c ∈ blanks, c = ' ' ∨ c = '\t') ∧
    authorization = some (utf8 (bearerScheme ++ (token ++ blanks)))

theorem visible_bearerScheme : ∀ c ∈ bearerScheme, Visible c := by
  simp [bearerScheme, Visible]

theorem requireBearer_ok_iff (token : AdminToken) (authorization : Option (List UInt8)) :
    requireBearer token authorization = .ok () ↔ Bears token.token authorization := by
  constructor
  · intro h
    cases authorization with
    | none => cases h
    | some value =>
      cases hstr : headerToStr value with
      | none => simp [requireBearer, hstr] at h
      | some bearer =>
        obtain ⟨rfl, hvisible⟩ := headerToStr_eq_some.mp hstr
        by_cases hscheme : bearerScheme.isPrefixOf bearer = true
        · obtain ⟨rest, rfl⟩ := List.isPrefixOf_iff_prefix.mp hscheme
          by_cases hverify : token.verify (Output.trimEnd rest) = true
          · have hrest : Output.trimEnd rest = token.token :=
              (utf8_injective (beq_iff_eq.mp hverify)).symm
            obtain ⟨blanks, rfl, hblanks⟩ := (trimEnd_eq_iff token.trimmed).mp hrest
            refine ⟨fun c hc => hvisible c (by simp [hc]), blanks, fun c hc => ?_, rfl⟩
            exact (visible_whitespace (hvisible c (by simp [hc]))).mp (hblanks c hc)
          · simp [requireBearer, hstr, hverify] at h
        · simp [requireBearer, hstr, hscheme] at h
  · rintro ⟨hvisible, blanks, hblanks, rfl⟩
    have hblank : ∀ c ∈ blanks, Visible c ∧ isWhitespace c = true := by
      intro c hc
      rcases hblanks c hc with rfl | rfl <;> simp [Visible, isWhitespace]
    have hstr : headerToStr (utf8 (bearerScheme ++ (token.token ++ blanks))) =
        some (bearerScheme ++ (token.token ++ blanks)) := by
      refine headerToStr_utf8 fun c hc => ?_
      rcases List.mem_append.mp hc with hc | hc
      · exact visible_bearerScheme c hc
      · rcases List.mem_append.mp hc with hc | hc
        · exact hvisible c hc
        · exact (hblank c hc).1
    have hscheme : bearerScheme.isPrefixOf (bearerScheme ++ (token.token ++ blanks)) = true :=
      List.isPrefixOf_iff_prefix.mpr (List.prefix_append _ _)
    have hrest : Output.trimEnd (token.token ++ blanks) = token.token :=
      (trimEnd_eq_iff token.trimmed).mpr ⟨blanks, rfl, fun c hc => (hblank c hc).2⟩
    simp [requireBearer, hstr, hscheme, hrest, AdminToken.verify]

theorem requireBearer_cases (token : AdminToken) (authorization : Option (List UInt8)) :
    requireBearer token authorization = .ok () ∨
      requireBearer token authorization = .error .unauthorized := by
  unfold requireBearer
  repeat' split
  all_goals simp

/-- What `read_line` reads of a file. -/
def firstLine (text : Text) : Text := (splitInclusive '\n' text).head?.getD []

theorem trim_firstLine {text line : Text} (h : (lines text).head? = some line) :
    trim (firstLine text) = trim line := by
  rw [lines, List.head?_map, Option.map_eq_some_iff] at h
  obtain ⟨piece, hpiece, hline⟩ := h
  rw [firstLine, hpiece, Option.getD_some]
  cases hfeed : stripSuffix '\n' piece with
  | none =>
    rw [hfeed] at hline
    rw [← hline]
  | some front =>
    rw [hfeed] at hline
    rw [stripSuffix_eq_some hfeed, trim_append_blanks (by simp [isWhitespace]), ← hline]
    cases hreturn : stripSuffix '\r' front with
    | none => simp [hreturn]
    | some rest =>
      simp only [hreturn, Option.getD_some]
      rw [stripSuffix_eq_some hreturn]
      exact trim_append_blanks (by simp [isWhitespace])

theorem load_eq_ok {contents : Option (List UInt8)} {token : AdminToken}
    (h : AdminToken.load contents = .ok token) :
    ∃ text line, contents = some (utf8 text) ∧ (lines text).head? = some line ∧
      token.token = trim line := by
  rw [AdminToken.load] at h
  cases htext : contents.bind fromUtf8 with
  | none => simp [htext] at h
  | some text =>
    obtain ⟨bytes, rfl, hbytes⟩ := Option.bind_eq_some_iff.mp htext
    cases hline : (lines text).head? with
    | none => simp [htext, hline] at h
    | some line =>
      refine ⟨text, line, by rw [fromUtf8_eq_some.mp hbytes], hline, ?_⟩
      simp only [htext, hline] at h
      split at h
      · cases h
      · cases h
        rfl

theorem AdminToken.token_ne_nil (token : AdminToken) : token.token ≠ [] := by
  intro h
  have hlong := token.long
  rw [h] at hlong
  exact absurd hlong (by decide)

theorem load_utf8 {text line : Text} (hline : (lines text).head? = some line)
    (hlong : minAdminTokenLen ≤ (utf8 (trim line)).length) :
    AdminToken.load (some (utf8 text)) = .ok ⟨trim line, hlong, trim_trim line⟩ := by
  have htext : fromUtf8 (utf8 text) = some text := fromUtf8_eq_some.mpr rfl
  simp [AdminToken.load, htext, hline, not_lt.mpr hlong]

/-- The API and `login` read the same token out of one file. It lets in exactly
the requests that bear it, so the tool gets in when the token is printable ASCII
or tabs, and otherwise nobody does. -/
theorem admits_iff {contents : List UInt8} {token : AdminToken}
    (h : AdminToken.load (some contents) = .ok token) :
    (∀ authorization, requireBearer token authorization = .ok () ↔ Bears token.token authorization) ∧
    ∃ text, contents = utf8 text ∧ readToken (firstLine text) = some token.token ∧
      (requireBearer token (some (utf8 (bearerScheme ++ token.token))) = .ok () ↔
        ∀ c ∈ token.token, Visible c) ∧
      ((∃ c ∈ token.token, ¬ Visible c) → ∀ authorization,
        requireBearer token authorization = .error .unauthorized) := by
  obtain ⟨text, line, hcontents, hline, htoken⟩ := load_eq_ok h
  refine ⟨requireBearer_ok_iff token, text, Option.some.inj hcontents, ?_, ?_, ?_⟩
  · rw [readToken, trim_firstLine hline, ← htoken, if_neg token.token_ne_nil]
  · rw [requireBearer_ok_iff]
    constructor
    · exact fun hbears => hbears.1
    · exact fun hvisible => ⟨hvisible, [], by simp, by simp⟩
  · rintro ⟨c, hc, hnot⟩ authorization
    refine (requireBearer_cases token authorization).resolve_left fun hok => ?_
    exact hnot (((requireBearer_ok_iff token authorization).mp hok).1 c hc)

def sampleToken : AdminToken := ⟨List.replicate 32 'x', by decide, by decide⟩

/-- A token between blanks, with a line after it. -/
theorem admits_iff_sample :
    requireBearer sampleToken (some (utf8 (bearerScheme ++ sampleToken.token))) = .ok () := by
  have hline : (lines ("  ".toList ++ sampleToken.token ++ "\t\r\nignored\n".toList)).head? =
      some ("  ".toList ++ sampleToken.token ++ ['\t']) := by
    decide
  have hload : AdminToken.load (some (utf8 ("  ".toList ++ sampleToken.token ++
      "\t\r\nignored\n".toList))) = .ok sampleToken :=
    load_utf8 hline (by decide)
  obtain ⟨-, text, -, -, hadmits, -⟩ := admits_iff hload
  refine hadmits.mpr fun c hc => ?_
  rw [List.eq_of_mem_replicate hc]
  simp [Visible]

end Homescope
