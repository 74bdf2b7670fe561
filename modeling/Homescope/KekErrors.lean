import Homescope.KekGrammar
import Mathlib.Data.List.Forall2

/-! What an error of `KekRing::parse` shows of the values in the file. -/

namespace Homescope

theorem decimal_injective : Function.Injective decimal := by
  intro m n h
  have hm := Nat.ofDigitChars_toDigits (b := 10) (n := m) (by decide) (by decide)
  have hn := Nat.ofDigitChars_toDigits (b := 10) (n := n) (by decide) (by decide)
  rw [← hm, ← hn]
  exact congrArg (Nat.ofDigitChars 10 · 0) h

/-- No message ends another. -/
theorem IntErrorKind.eq_of_append {s t : Text} {e f : IntErrorKind} (h : s ++ e.text = t ++ f.text) :
    s = t ∧ e = f := by
  have hsuffix : ∀ e f : IntErrorKind, e.text <:+ f.text → e = f := by
    intro e f
    cases e <;> cases f <;> decide
  have hkind : e = f := by
    rcases List.suffix_or_suffix_of_suffix (List.suffix_append s e.text)
      (h ▸ List.suffix_append t f.text) with hef | hfe
    · exact hsuffix e f hef
    · exact (hsuffix f e hfe).symm
  subst hkind
  exact ⟨List.append_cancel_right h, rfl⟩

/-- The two messages part at their thirteenth character. -/
theorem KekParseError.text_invalidLen_ne (len : Nat) :
    KekParseError.text (.invalidLen len) ≠ KekParseError.text .invlidChar := by
  intro h
  have hlength : (KekParseError.text (.invalidLen len))[12]? = some 'l' := by
    have hprefix : ("invalid key length: ".toList)[12]? = some 'l' := by decide +kernel
    have hlong : 12 < "invalid key length: ".toList.length := by decide +kernel
    have htext : KekParseError.text (.invalidLen len) =
        "invalid key length: ".toList ++ (decimal len ++ ", should be: 32".toList) :=
      List.append_assoc ..
    rw [htext, List.getElem?_append_left hlong, hprefix]
  have hformat : (KekParseError.text .invlidChar)[12]? = some 'f' := by decide +kernel
  have hsame := congrArg (fun s => s[12]?) h
  simp only [hlength, hformat] at hsame
  exact absurd (Option.some.inj hsame) (by decide)

theorem KekParseError.text_injective : Function.Injective KekParseError.text := by
  intro e f h
  cases e with
  | invalidLen m =>
    cases f with
    | invalidLen n =>
      have hdecimal : decimal m = decimal n :=
        List.append_cancel_left (List.append_cancel_right h)
      exact congrArg KekParseError.invalidLen (decimal_injective hdecimal)
    | invlidChar => exact absurd h (text_invalidLen_ne m)
  | invlidChar =>
    cases f with
    | invalidLen n => exact absurd h.symm (text_invalidLen_ne n)
    | invlidChar => rfl

/-- The branch of `parse` that an error comes from. -/
inductive KekFileError.Branch
  | invalidSyntax
  | currentTwice
  | invalidVersion
  | invalidKekVersion
  | invalidKek
  | duplicateGeneration
  | noCurrent
  | noKeyForCurrent
  deriving DecidableEq

namespace KekFileError

def branch : KekFileError → Branch
  | .invalidSyntax _ => .invalidSyntax
  | .currentTwice _ => .currentTwice
  | .invalidVersion .. => .invalidVersion
  | .invalidKekVersion .. => .invalidKekVersion
  | .invalidKek .. => .invalidKek
  | .duplicateGeneration .. => .duplicateGeneration
  | .noCurrent => .noCurrent
  | .noKeyForCurrent _ => .noKeyForCurrent

/-- The two errors at the end of the file name no line. -/
def lineNum : KekFileError → Option Nat
  | .invalidSyntax n | .currentTwice n | .invalidVersion _ n _ | .invalidKekVersion _ n _
  | .invalidKek n _ | .duplicateGeneration _ n => some n
  | .noCurrent | .noKeyForCurrent _ => none

end KekFileError

namespace KekRing

/-! ### The line of an error -/

/-- The errors of an entry, by what is wrong with it. -/
inductive Faulty (key val : Text) (lineNum : Nat) : KekFileError → Prop
  | currentTwice : Faulty key val lineNum (.currentTwice lineNum)
  | invalidVersion {e : IntErrorKind} (h : u8FromStr val = .error e) :
      Faulty key val lineNum (.invalidVersion val lineNum e)
  | invalidKekVersion {e : IntErrorKind} (h : u8FromStr key = .error e) :
      Faulty key val lineNum (.invalidKekVersion key lineNum e)
  | invalidKek {e : KekParseError} (h : Kek.tryFrom val = .error e) :
      Faulty key val lineNum (.invalidKek lineNum e)
  | duplicateGeneration {kekVer : Byte} (h : u8FromStr key = .ok kekVer) :
      Faulty key val lineNum (.duplicateGeneration kekVer lineNum)

variable {state : Partial} {key val : Text} {lineNum : Nat} {e : KekFileError} {content : Text}

theorem faulty_of_parseEntry (h : parseEntry state lineNum key val = .error e) :
    Faulty key val lineNum e := by
  rw [parseEntry] at h
  split at h
  · split at h
    · cases h
      exact .currentTwice
    · split at h
      · rename_i hval
        cases h
        exact .invalidVersion hval
      · cases h
  · split at h
    · rename_i hkey
      cases h
      exact .invalidKekVersion hkey
    · rename_i hkey
      split at h
      · rename_i hkek
        cases h
        exact .invalidKek hkek
      · split at h
        · cases h
          exact .duplicateGeneration hkey
        · cases h

/-- The entry of the `n`th line, counted from 1. -/
def entryAt (content : Text) (n : Nat) : Option (Text × Text) :=
  ((lines content)[n - 1]?).bind lineEntry

/-- The number on the `current` line. -/
def currentNumber (content : Text) : Option Byte :=
  (currents (entries content)).head?.bind fun e => (u8FromStr e.2).toOption

theorem parseLines_error_at {ls : List Text} (h : parseLines state lineNum ls = .error e) :
    ∃ i line, ls[i]? = some line ∧ (e = .invalidSyntax (lineNum + i) ∨
      ∃ key val, lineEntry line = some (key, val) ∧ Faulty key val (lineNum + i) e) := by
  induction ls generalizing state lineNum with
  | nil => cases h
  | cons line ls ih =>
    simp only [parseLines] at h
    split at h
    · rename_i herr
      cases h
      refine ⟨0, line, rfl, ?_⟩
      rw [parseLine] at herr
      split at herr
      · cases herr
      split at herr
      · cases herr
        exact .inl rfl
      · rename_i key val hentry
        exact .inr ⟨key, val, hentry, faulty_of_parseEntry herr⟩
    · obtain ⟨i, line', hline, hcause⟩ := ih h
      rw [show lineNum + 1 + i = lineNum + (i + 1) by omega] at hcause
      exact ⟨i + 1, line', hline, hcause⟩

/-- Where an error comes from. -/
theorem parse_error (h : parse content = .error e) :
    (∃ n, e = .invalidSyntax n ∨
      ∃ key val, entryAt content n = some (key, val) ∧ Faulty key val n e) ∨
    e = .noCurrent ∨ ∃ version, e = .noKeyForCurrent version ∧
      currentNumber content = some version := by
  rw [parse] at h
  split at h
  · rename_i e' herr
    cases h
    obtain ⟨i, line, hline, hcause⟩ := parseLines_error_at herr
    refine .inl ⟨1 + i, hcause.imp_right ?_⟩
    rintro ⟨key, val, hentry, hfaulty⟩
    refine ⟨key, val, ?_, hfaulty⟩
    rw [entryAt, Nat.add_sub_cancel_left, hline]
    exact hentry
  · rename_i state hlines
    split at h
    · cases h
      exact .inr (.inl rfl)
    · rename_i version hversion
      split at h
      · cases h
      · cases h
        obtain ⟨-, hv, hd⟩ := parseLines_ok valid_nil describes_nil hlines
        rw [List.nil_append, ← entries] at hv hd
        obtain ⟨f, hf, hnumber⟩ := (hd.current version).mp hversion
        refine .inr (.inr ⟨version, rfl, ?_⟩)
        obtain ⟨g, hg⟩ := List.length_eq_one_iff.mp
          (le_antisymm hv.current_le_one (List.length_pos_of_mem hf))
        rw [hg, List.mem_singleton] at hf
        subst hf
        rw [currentNumber, hg]
        simp [hnumber, Except.toOption]

/-! ### Two files that differ in their values -/

/-- Nothing but the text right of the first `=` differs. -/
def SameButValue (line line' : Text) : Prop :=
  line = line' ∨ ∃ key val val', splitOnceChar '=' line = some (key, val) ∧
    splitOnceChar '=' line' = some (key, val')

/-- The key of an entry is left of the first `=` of the line. -/
theorem key_of_lineEntry {line : Text} (h : lineEntry line = some (key, val)) :
    ∃ before after, splitOnceChar '=' line = some (before, after) ∧ key = trim before := by
  obtain ⟨⟨k, v⟩, hsplit, hpair⟩ := Option.map_eq_some_iff.mp h
  obtain ⟨huncommented, hk⟩ := splitOnceChar_eq_some.mp hsplit
  obtain ⟨start, rest, hstart⟩ :
      ∃ start rest, line = start ++ rest ∧ uncommented line = trim start := by
    cases hcomment : splitOnceChar '#' line with
    | none => exact ⟨line, [], by simp, by simp [uncommented, hcomment]⟩
    | some p =>
      obtain ⟨before, after⟩ := p
      obtain ⟨hline, -⟩ := splitOnceChar_eq_some.mp hcomment
      exact ⟨before, '#' :: after, hline, by simp [uncommented, hcomment]⟩
  obtain ⟨hline, htrim⟩ := hstart
  obtain ⟨before, after, hspaces, hbefore, -⟩ := exists_trim start
  rw [← htrim, huncommented] at hspaces
  refine ⟨before ++ k, v ++ (after ++ rest), ?_, ?_⟩
  · rw [splitOnceChar_eq_some]
    constructor
    · rw [hline, hspaces]
      simp
    · intro hmem
      rcases List.mem_append.mp hmem with hmem | hmem
      · exact absurd (hbefore '=' hmem) (by decide)
      · exact hk hmem
  · rw [trim_append hbefore]
    exact (congrArg Prod.fst hpair).symm

theorem SameButValue.key_eq {line line' key' val' : Text} (h : SameButValue line line')
    (hentry : lineEntry line = some (key, val)) (hentry' : lineEntry line' = some (key', val')) :
    key = key' := by
  rcases h with rfl | ⟨k, v, v', hk, hk'⟩
  · exact congrArg Prod.fst (Option.some.inj (hentry.symm.trans hentry'))
  · obtain ⟨before, after, hsplit, rfl⟩ := key_of_lineEntry hentry
    obtain ⟨before', after', hsplit', rfl⟩ := key_of_lineEntry hentry'
    rw [hk] at hsplit
    rw [hk'] at hsplit'
    cases hsplit
    cases hsplit'
    rfl

theorem key_eq_of_entryAt {content' key' val' : Text} {n : Nat}
    (h : List.Forall₂ SameButValue (lines content) (lines content'))
    (hentry : entryAt content n = some (key, val))
    (hentry' : entryAt content' n = some (key', val')) : key = key' := by
  obtain ⟨line, hline, hkey⟩ := Option.bind_eq_some_iff.mp hentry
  obtain ⟨line', hline', hkey'⟩ := Option.bind_eq_some_iff.mp hentry'
  obtain ⟨hi, rfl⟩ := List.getElem?_eq_some_iff.mp hline
  obtain ⟨hi', rfl⟩ := List.getElem?_eq_some_iff.mp hline'
  exact ((List.forall₂_iff_get.mp h).2 (n - 1) hi hi').key_eq hkey hkey'

end KekRing

/-! ### The rendered errors -/

theorem Kek.fromPairs_error {bytes : List UInt8} {e : KekParseError}
    (h : fromPairs bytes = .error e) : e = .invlidChar := by
  fun_induction fromPairs bytes with
  | case1 | case2 =>
    cases h
    rfl
  | case3 hi lo bytes pair hpair byte hbyte ih =>
    cases hrest : fromPairs bytes with
    | error e' =>
      rw [hrest] at h
      cases h
      exact ih hrest
    | ok rest =>
      rw [hrest] at h
      cases h
  | case4 => cases h

/-- The error of a value is that of its length. -/
theorem Kek.tryFrom_error {val : Text} {e : KekParseError} (h : tryFrom val = .error e) :
    e = if (utf8 val).length = 64 then .invlidChar else .invalidLen (utf8 val).length := by
  simp only [tryFrom] at h
  split at h
  · rename_i hlen
    cases h
    exact (if_neg hlen).symm
  · rename_i hlen
    rw [if_pos (not_not.mp hlen)]
    split at h
    · rename_i e' he'
      cases h
      exact fromPairs_error he'
    · cases h

theorem Kek.tryFrom_error_eq_iff {val val' : Text} {e e' : KekParseError}
    (h : tryFrom val = .error e) (h' : tryFrom val' = .error e') :
    e = e' ↔ (utf8 val).length = (utf8 val').length := by
  rw [tryFrom_error h, tryFrom_error h']
  by_cases hlen : (utf8 val).length = 64
  · by_cases hlen' : (utf8 val').length = 64
    · simp [hlen, hlen']
    · simp [hlen, hlen', eq_comm]
  · by_cases hlen' : (utf8 val').length = 64
    · simp [hlen']
    · simp [hlen, hlen']

namespace KekFileError

theorem rendered_single {e : KekFileError} {text : Text} (h : e.chain = [text]) :
    e.rendered = text := by
  rw [rendered, h]
  simp [List.intercalate]

theorem rendered_pair {e : KekFileError} {text source : Text} (h : e.chain = [text, source]) :
    e.rendered = text ++ (": ".toList ++ source) := by
  rw [rendered, h]
  simp [List.intercalate]

theorem invalidVersion_rendered_inj {val val' : Text} {n : Nat} {k k' : IntErrorKind}
    (h : rendered (.invalidVersion val n k) = rendered (.invalidVersion val' n k')) : val = val' := by
  rw [rendered_pair rfl, rendered_pair rfl] at h
  have hkinds := (List.append_assoc ..).trans (h.trans (List.append_assoc ..).symm)
  exact List.append_cancel_left (List.append_cancel_right
    (List.append_cancel_right (IntErrorKind.eq_of_append hkinds).1))

theorem invalidKek_rendered_inj {n : Nat} {e e' : KekParseError}
    (h : rendered (.invalidKek n e) = rendered (.invalidKek n e')) : e = e' := by
  rw [rendered_pair rfl, rendered_pair rfl] at h
  exact KekParseError.text_injective (List.append_cancel_left (List.append_cancel_left h))

theorem noKeyForCurrent_rendered_inj {v v' : Byte}
    (h : rendered (.noKeyForCurrent v) = rendered (.noKeyForCurrent v')) : v = v' := by
  rw [rendered_single rfl, rendered_single rfl] at h
  exact BitVec.eq_of_toNat_eq
    (decimal_injective (List.append_cancel_left (List.append_cancel_right h)))

end KekFileError

namespace KekRing

/-- Two errors of one branch about the entries of a key. -/
theorem Faulty.rendered_eq {key val val' : Text} {n : Nat} {e e' : KekFileError}
    (h : Faulty key val n e) (h' : Faulty key val' n e') (hbranch : e.branch = e'.branch) :
    e.rendered = e'.rendered ↔ (e.branch = .invalidVersion → val = val') ∧
      (e.branch = .invalidKek → (utf8 val).length = (utf8 val').length) := by
  cases h with
  | currentTwice =>
    cases h' <;> cases hbranch
    exact iff_of_true rfl ⟨nofun, nofun⟩
  | invalidVersion hval =>
    cases h' <;> cases hbranch
    rename_i hval'
    constructor
    · intro h
      exact ⟨fun _ => KekFileError.invalidVersion_rendered_inj h, nofun⟩
    · rintro ⟨hsame, -⟩
      obtain rfl := hsame rfl
      rw [hval] at hval'
      rw [Except.error.inj hval']
  | invalidKekVersion hkey =>
    cases h' <;> cases hbranch
    rename_i hkey'
    rw [hkey] at hkey'
    rw [Except.error.inj hkey']
    exact iff_of_true rfl ⟨nofun, nofun⟩
  | invalidKek hkek =>
    cases h' <;> cases hbranch
    rename_i hkek'
    have hlen := Kek.tryFrom_error_eq_iff hkek hkek'
    constructor
    · intro h
      exact ⟨nofun, fun _ => hlen.mp (KekFileError.invalidKek_rendered_inj h)⟩
    · rintro ⟨-, hsame⟩
      rw [hlen.mpr (hsame rfl)]
  | duplicateGeneration hkey =>
    cases h' <;> cases hbranch
    rename_i hkey'
    rw [hkey] at hkey'
    rw [Except.ok.inj hkey']
    exact iff_of_true rfl ⟨nofun, nofun⟩

/-- The value on the `n`th line. -/
def valueAt (content : Text) (n : Nat) : Text := ((entryAt content n).map Prod.snd).getD []

/-- Two files agree on what the errors of a branch echo: the value where `current` is no number, the
length of the value where a key is not one, and the number of a `current` without a key. -/
def SameEchoed (content content' : Text) : KekFileError.Branch → Option Nat → Prop
  | .invalidVersion, some n => valueAt content n = valueAt content' n
  | .invalidKek, some n => (utf8 (valueAt content n)).length = (utf8 (valueAt content' n)).length
  | .noKeyForCurrent, _ => currentNumber content = currentNumber content'
  | _, _ => True

theorem Faulty.lineNum {key val : Text} {n : Nat} {e : KekFileError} (h : Faulty key val n e) :
    e.lineNum = some n := by
  cases h <;> rfl

theorem currentNumber_of_parse {content : Text} {v : Byte}
    (h : parse content = .error (.noKeyForCurrent v)) : currentNumber content = some v := by
  rcases parse_error h with ⟨n, h | ⟨key, val, -, hfaulty⟩⟩ | h | ⟨v', h, hv⟩
  · cases h
  · cases hfaulty
  · cases h
  · cases h
    exact hv

/-- An error shows of the values of a file what its branch echoes, and nothing else. -/
theorem rendered_eq_iff {content content' : Text} {e e' : KekFileError}
    (hlines : List.Forall₂ SameButValue (lines content) (lines content'))
    (h : parse content = .error e) (h' : parse content' = .error e')
    (hbranch : e.branch = e'.branch) (hline : e.lineNum = e'.lineNum) :
    e.rendered = e'.rendered ↔ SameEchoed content content' e.branch e.lineNum := by
  rcases parse_error h with ⟨n, rfl | ⟨key, val, hentry, hfaulty⟩⟩ | rfl | ⟨v, rfl, hv⟩
  · cases e' <;> cases hbranch
    cases hline
    exact iff_of_true rfl trivial
  · rcases parse_error h' with ⟨n', rfl | ⟨key', val', hentry', hfaulty'⟩⟩ | rfl | ⟨v', rfl, -⟩
    · cases hfaulty <;> cases hbranch
    · rw [hfaulty.lineNum, hfaulty'.lineNum, Option.some.injEq] at hline
      subst hline
      obtain rfl := key_eq_of_entryAt hlines hentry hentry'
      have hval : valueAt content n = val := by simp [valueAt, hentry]
      have hval' : valueAt content' n = val' := by simp [valueAt, hentry']
      rw [hfaulty.rendered_eq hfaulty' hbranch, hfaulty.lineNum]
      cases hfaulty <;> simp [KekFileError.branch, SameEchoed, hval, hval']
    · cases hfaulty <;> cases hbranch
    · cases hfaulty <;> cases hbranch
  · cases e' <;> cases hbranch
    exact iff_of_true rfl trivial
  · cases e' <;> cases hbranch
    rename_i v'
    have hsame : SameEchoed content content' .noKeyForCurrent none ↔ v = v' := by
      rw [SameEchoed, currentNumber_of_parse h, currentNumber_of_parse h', Option.some.injEq]
    refine Iff.trans ⟨KekFileError.noKeyForCurrent_rendered_inj, fun h => ?_⟩ hsame.symm
    rw [h]

section Mistyped

def failure (content : Text) : Option KekFileError :=
  match parse content with
  | .error e => some e
  | .ok _ => none

theorem parse_of_failure {content : Text} {e : KekFileError} (h : failure content = some e) :
    parse content = .error e := by
  rw [failure] at h
  split at h
  · rename_i herr
    rw [herr, Option.some.inj h]
  · cases h

def mistyped : Text := "current = abc".toList

def retyped : Text := "current = abd".toList

theorem parse_mistyped : parse mistyped = .error (.invalidVersion "abc".toList 1 .invalidDigit) :=
  parse_of_failure (by decide +kernel)

theorem parse_retyped : parse retyped = .error (.invalidVersion "abd".toList 1 .invalidDigit) :=
  parse_of_failure (by decide +kernel)

theorem lines_mistyped : List.Forall₂ (fun line line' => SameButValue line line' ∧
    (utf8 line).length = (utf8 line').length) (lines mistyped) (lines retyped) := by
  have hsame : SameButValue mistyped retyped :=
    .inr ⟨"current ".toList, " abc".toList, " abd".toList, by decide +kernel, by decide +kernel⟩
  have hlines : lines mistyped = [mistyped] := by decide +kernel
  have hlines' : lines retyped = [retyped] := by decide +kernel
  rw [hlines, hlines']
  exact .cons ⟨hsame, by decide +kernel⟩ .nil

-- a comparison of the two errors would first compare their texts
theorem branch_mistyped (val val' : Text) (n : Nat) (k : IntErrorKind) :
    KekFileError.branch (.invalidVersion val n k) = KekFileError.branch (.invalidVersion val' n k) := rfl

theorem lineNum_mistyped (val val' : Text) (n : Nat) (k : IntErrorKind) :
    KekFileError.lineNum (.invalidVersion val n k) = KekFileError.lineNum (.invalidVersion val' n k) :=
  rfl

theorem rendered_eq_iff_mistyped :
    KekFileError.rendered (.invalidVersion "abc".toList 1 .invalidDigit) =
      KekFileError.rendered (.invalidVersion "abd".toList 1 .invalidDigit) ↔
        SameEchoed mistyped retyped .invalidVersion (some 1) :=
  rendered_eq_iff (lines_mistyped.imp fun _ _ => And.left) parse_mistyped parse_retyped
    (branch_mistyped _ _ _ _) (lineNum_mistyped _ _ _ _)

/-- A mistyped `current` is echoed. -/
theorem not_rendered_eq : ¬∀ (content content' : Text) (e e' : KekFileError),
    List.Forall₂ (fun line line' => SameButValue line line' ∧
      (utf8 line).length = (utf8 line').length) (lines content) (lines content') →
    parse content = .error e → parse content' = .error e' →
    e.branch = e'.branch → e.lineNum = e'.lineNum → e.rendered = e'.rendered := by
  intro h
  have hrendered := h mistyped retyped _ _ lines_mistyped parse_mistyped parse_retyped
    (branch_mistyped _ _ _ _) (lineNum_mistyped _ _ _ _)
  exact absurd (KekFileError.invalidVersion_rendered_inj hrendered) (by decide +kernel)

end Mistyped

end KekRing

end Homescope
