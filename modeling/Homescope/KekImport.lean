import Homescope.KekGrammar
import Homescope.Regex

/-! The check that the deploy makes on a KEK file before it imports it
(`deploy/components/api.sh`), against the file that `KekRing::parse` reads. -/

namespace Homescope

open RegularExpression Regex

namespace KekImport

def digits : List Char := charRange '0' '9'

def hexDigits : List Char := charRange '0' '9' ++ charRange 'a' 'f' ++ charRange 'A' 'F'

variable (spaces : List Char)

/-- `[[:space:]]*KEY[[:space:]]*=[[:space:]]*VAL[[:space:]]*`, with the
characters that the locale takes for spaces. -/
def entryPattern (key val : RegularExpression Char) : RegularExpression Char :=
  (bracket spaces).star * (key * ((bracket spaces).star * (literal ['='] *
    ((bracket spaces).star * (val * (bracket spaces).star)))))

def currentPattern : RegularExpression Char :=
  entryPattern spaces (literal "current".toList) (oneOrMore (bracket digits))

def generationPattern : RegularExpression Char :=
  entryPattern spaces (oneOrMore (bracket digits)) (bracket hexDigits ^ 64)

/-- The lines of `grep`, for which a NUL ends a line too. -/
def grepLines (content : Text) : List Text := content.splitOnP fun c => c == '\n' || c == '\x00'

/-- `grep -Eq '^PATTERN$'`. -/
def grepEq (pattern : RegularExpression Char) (content : Text) : Bool :=
  (grepLines content).any (matchesAll pattern)

/-- Both calls of `grep` find a line. -/
def looksLikeKekFile (content : Text) : Bool :=
  grepEq (currentPattern spaces) content && grepEq (generationPattern spaces) content

/-- What is a space in a locale: those of ASCII, and of the others none that
Unicode does not count as one. -/
structure LocaleSpaces : Prop where
  ascii : ∀ c : Char, c.toNat < 128 → (c ∈ spaces ↔ isWhitespace c = true)
  white : ∀ c ∈ spaces, isWhitespace c = true

variable {spaces} {line key val : Text}

/-! ### One line -/

/-- A key or a value that has nothing to trim or to split at. -/
structure Word (w : Text) : Prop where
  ne_nil : w ≠ []
  plain : ∀ c ∈ w, isWhitespace c = false ∧ c ≠ '#' ∧ c ≠ '='

/-- A line without a comment, and without spaces that only Unicode knows. -/
structure PlainLine (spaces : List Char) (line : Text) : Prop where
  no_comment : '#' ∉ line
  spaces : ∀ c ∈ line, isWhitespace c = true → c ∈ spaces

theorem mem_entryPattern {K V : RegularExpression Char} :
    line ∈ (entryPattern spaces K V).matches' ↔ ∃ a key b c val d,
      line = a ++ (key ++ (b ++ '=' :: (c ++ (val ++ d)))) ∧
      key ∈ K.matches' ∧ val ∈ V.matches' ∧
      (∀ x ∈ a, x ∈ spaces) ∧ (∀ x ∈ b, x ∈ spaces) ∧ (∀ x ∈ c, x ∈ spaces) ∧
      ∀ x ∈ d, x ∈ spaces := by
  simp only [entryPattern, matches'_mul, Language.mem_mul, mem_star_bracket, mem_literal]
  constructor
  · rintro ⟨a, ha, _, ⟨key, hkey, _, ⟨b, hb, _, ⟨_, rfl, _, ⟨c, hc, _, ⟨val, hval, d, hd, rfl⟩,
      rfl⟩, rfl⟩, rfl⟩, rfl⟩, rfl⟩
    exact ⟨a, key, b, c, val, d, rfl, hkey, hval, ha, hb, hc, hd⟩
  · rintro ⟨a, key, b, c, val, d, rfl, hkey, hval, ha, hb, hc, hd⟩
    exact ⟨a, ha, _, ⟨key, hkey, _, ⟨b, hb, _, ⟨_, rfl, _, ⟨c, hc, _, ⟨val, hval, d, hd, rfl⟩,
      rfl⟩, rfl⟩, rfl⟩, rfl⟩, rfl⟩

theorem Word.trim (h : Word key) : trim key = key := by
  refine trim_eq_self_iff.mpr ⟨fun c hc => (h.plain c ?_).1, fun c hc => (h.plain c ?_).1⟩
  · exact List.mem_of_mem_head? hc
  · exact List.mem_of_mem_getLast? hc

/-- A pair with spaces around its parts is read as the pair. -/
theorem lineEntry_spaced (hkey : Word key) (hval : Word val) {a b c d : Text}
    (hline : line = a ++ (key ++ (b ++ '=' :: (c ++ (val ++ d)))))
    (ha : ∀ x ∈ a, isWhitespace x = true) (hb : ∀ x ∈ b, isWhitespace x = true)
    (hc : ∀ x ∈ c, isWhitespace x = true) (hd : ∀ x ∈ d, isWhitespace x = true) :
    '#' ∉ line ∧ KekRing.lineEntry line = some (key, val) := by
  have hmark : isWhitespace '#' = false := by decide
  have hequals : isWhitespace '=' = false := by decide
  have hnot : ∀ {s : Text}, (∀ x ∈ s, isWhitespace x = true) → ∀ {x}, isWhitespace x = false → x ∉ s :=
    fun hs x hx hmem => by simp [hs x hmem] at hx
  have hcomment : '#' ∉ line := by
    have hk : '#' ∉ key := fun hmem => (hkey.plain _ hmem).2.1 rfl
    have hv : '#' ∉ val := fun hmem => (hval.plain _ hmem).2.1 rfl
    simp [hline, hnot ha hmark, hnot hb hmark, hnot hc hmark, hnot hd hmark, hk, hv]
  refine ⟨hcomment, ?_⟩
  have hsplit : splitOnceChar '#' line = none := by
    cases h : splitOnceChar '#' line with
    | none => rfl
    | some p =>
      obtain ⟨rfl, -⟩ := splitOnceChar_eq_some.mp h
      exact absurd (by simp) hcomment
  have hmiddle : trim (key ++ (b ++ '=' :: (c ++ val))) = key ++ (b ++ '=' :: (c ++ val)) := by
    refine trim_eq_self_iff.mpr ⟨fun x hx => ?_, fun x hx => ?_⟩
    · rw [List.head?_append_of_ne_nil _ hkey.ne_nil] at hx
      exact (hkey.plain x (List.mem_of_mem_head? hx)).1
    · have hend : key ++ (b ++ '=' :: (c ++ val)) = (key ++ (b ++ '=' :: c)) ++ val := by simp
      rw [hend, List.getLast?_append_of_ne_nil _ hval.ne_nil] at hx
      exact (hval.plain x (List.mem_of_mem_getLast? hx)).1
  have huncommented : KekRing.uncommented line = key ++ (b ++ '=' :: (c ++ val)) := by
    have hassoc : line = a ++ ((key ++ (b ++ '=' :: (c ++ val))) ++ d) := by simp [hline]
    rw [KekRing.uncommented, hsplit, Option.elim_none, hassoc, trim_append_append ha hmiddle hd]
  have hbefore : '=' ∉ key ++ b := by
    have hk : '=' ∉ key := fun hmem => (hkey.plain _ hmem).2.2 rfl
    simp [hk, hnot hb hequals]
  have hsplitEquals : splitOnceChar '=' (key ++ (b ++ '=' :: (c ++ val))) =
      some (key ++ b, c ++ val) :=
    splitOnceChar_eq_some.mpr ⟨by simp, hbefore⟩
  have htrimKey : trim (key ++ b) = key := trim_append_append (s := []) (by simp) hkey.trim hb
  have htrimVal : trim (c ++ val) = val := by
    rw [trim_append hc, hval.trim]
  rw [KekRing.lineEntry, huncommented, KekRing.keyVal, hsplitEquals]
  simp only [Option.map_some, htrimKey, htrimVal]

/-- A pattern of two words accepts the plain lines that are read as such a pair. -/
theorem entryPattern_iff (hlocale : LocaleSpaces spaces) {K V : RegularExpression Char}
    (hK : ∀ w ∈ K.matches', Word w) (hV : ∀ w ∈ V.matches', Word w) :
    matchesAll (entryPattern spaces K V) line = true ↔ PlainLine spaces line ∧
      ∃ key ∈ K.matches', ∃ val ∈ V.matches', KekRing.lineEntry line = some (key, val) := by
  rw [matchesAll_iff, mem_entryPattern]
  constructor
  · rintro ⟨a, key, b, c, val, d, hline, hkey, hval, ha, hb, hc, hd⟩
    obtain ⟨hcomment, hentry⟩ := lineEntry_spaced (hK key hkey) (hV val hval) hline
      (fun x hx => hlocale.white x (ha x hx)) (fun x hx => hlocale.white x (hb x hx))
      (fun x hx => hlocale.white x (hc x hx)) (fun x hx => hlocale.white x (hd x hx))
    refine ⟨⟨hcomment, fun x hx hwhite => ?_⟩, key, hkey, val, hval, hentry⟩
    have hk : x ∉ key := fun hmem => by simp [((hK key hkey).plain x hmem).1] at hwhite
    have hv : x ∉ val := fun hmem => by simp [((hV val hval).plain x hmem).1] at hwhite
    have heq : x ≠ '=' := by
      rintro rfl
      exact absurd hwhite (by decide)
    simp only [hline, List.mem_append, List.mem_cons, hk, hv, heq, false_or] at hx
    rcases hx with hx | hx | hx | hx
    · exact ha x hx
    · exact hb x hx
    · exact hc x hx
    · exact hd x hx
  · rintro ⟨hplain, key, hkey, val, hval, hentry⟩
    have hsplit : splitOnceChar '#' line = none := by
      cases h : splitOnceChar '#' line with
      | none => rfl
      | some p =>
        obtain ⟨hline, -⟩ := splitOnceChar_eq_some.mp h
        exact absurd (by simp [hline]) hplain.no_comment
    rw [KekRing.lineEntry, KekRing.uncommented, hsplit, Option.elim_none, KekRing.keyVal,
      Option.map_eq_some_iff] at hentry
    obtain ⟨⟨before, after⟩, hequals, hpair⟩ := hentry
    obtain ⟨rfl, rfl⟩ := Prod.mk.inj hpair
    obtain ⟨hmiddle, -⟩ := splitOnceChar_eq_some.mp hequals
    obtain ⟨a, d, hline, ha, hd⟩ := exists_trim line
    obtain ⟨a', b, hkeyed, ha', hb⟩ := exists_trim before
    obtain ⟨c, d', hvalued, hc, hd'⟩ := exists_trim after
    have hwhole : line = (a ++ a') ++ (trim before ++ (b ++ '=' :: (c ++ (trim after ++ (d' ++ d))))) := by
      calc
        line = a ++ (trim line ++ d) := hline
        _ = a ++ ((before ++ '=' :: after) ++ d) := by rw [hmiddle]
        _ = a ++ (((a' ++ (trim before ++ b)) ++ '=' :: (c ++ (trim after ++ d'))) ++ d) := by
          rw [← hkeyed, ← hvalued]
        _ = _ := by simp
    have hparts : ∀ x, x ∈ line ↔ (x ∈ a ∨ x ∈ a') ∨ x ∈ trim before ∨ x ∈ b ∨ x = '=' ∨
        x ∈ c ∨ x ∈ trim after ∨ x ∈ d' ∨ x ∈ d := by
      intro x
      rw [hwhole]
      simp only [List.mem_append, List.mem_cons]
    have hwhite : ∀ x, x ∈ line → isWhitespace x = true → x ∈ spaces := hplain.spaces
    refine ⟨a ++ a', trim before, b, c, trim after, d' ++ d, hwhole, hkey, hval, ?_, ?_, ?_, ?_⟩
    · intro x hx
      exact hwhite x ((hparts x).mpr (.inl (List.mem_append.mp hx)))
        ((List.mem_append.mp hx).elim (ha x) (ha' x))
    · intro x hx
      exact hwhite x ((hparts x).mpr (by tauto)) (hb x hx)
    · intro x hx
      exact hwhite x ((hparts x).mpr (by tauto)) (hc x hx)
    · intro x hx
      have hmem := List.mem_append.mp hx
      exact hwhite x ((hparts x).mpr (by tauto)) (hmem.elim (hd' x) (hd x))

/-! ### The two patterns -/

theorem mem_digits {c : Char} : c ∈ digits ↔ isAsciiDigit c = true := by
  rw [digits, mem_charRange (by decide), isAsciiDigit, Bool.and_eq_true, decide_eq_true_eq,
    decide_eq_true_eq]
  rfl

theorem mem_hexDigits {c : Char} : c ∈ hexDigits ↔ isAsciiHexdigit c = true := by
  rw [hexDigits, List.mem_append, List.mem_append, mem_charRange (by decide),
    mem_charRange (by decide), mem_charRange (by decide), isAsciiHexdigit]
  simp only [Bool.or_eq_true, Bool.and_eq_true, decide_eq_true_eq]
  rfl

theorem word_of_forall {w : Text} {cs : List Char} (hne : w ≠ []) (hw : ∀ c ∈ w, c ∈ cs)
    (hcs : cs.all (fun c => !isWhitespace c && c != '#' && c != '=') = true) : Word w := by
  refine ⟨hne, fun c hc => ?_⟩
  simpa [and_assoc] using List.all_eq_true.mp hcs c (hw c hc)

theorem word_digits {w : Text} (h : w ∈ (oneOrMore (bracket digits)).matches') : Word w := by
  obtain ⟨hne, hall⟩ := mem_oneOrMore_bracket.mp h
  exact word_of_forall hne hall (by decide)

theorem word_hex {w : Text} (h : w ∈ (bracket hexDigits ^ 64).matches') : Word w := by
  obtain ⟨hlength, hall⟩ := mem_pow_bracket.mp h
  refine word_of_forall ?_ hall (by decide)
  rintro rfl
  cases hlength

theorem word_current {w : Text} (h : w ∈ (literal "current".toList).matches') : Word w := by
  obtain rfl := mem_literal.mp h
  exact word_of_forall (by decide) (fun _ hc => hc) (by decide)

/-- Some plain line sets `current` in decimal digits, and some plain line sets
a generation in hex digits. -/
structure PlainEntries (spaces : List Char) (content : Text) : Prop where
  current : ∃ line ∈ grepLines content, PlainLine spaces line ∧
    ∃ val, KekRing.lineEntry line = some ("current".toList, val) ∧ val ≠ [] ∧
      ∀ c ∈ val, isAsciiDigit c = true
  generation : ∃ line ∈ grepLines content, PlainLine spaces line ∧
    ∃ key val, KekRing.lineEntry line = some (key, val) ∧ key ≠ [] ∧
      (∀ c ∈ key, isAsciiDigit c = true) ∧ val.length = 64 ∧ ∀ c ∈ val, isAsciiHexdigit c = true

theorem currentPattern_iff (hlocale : LocaleSpaces spaces) :
    matchesAll (currentPattern spaces) line = true ↔ PlainLine spaces line ∧
      ∃ val, KekRing.lineEntry line = some ("current".toList, val) ∧ val ≠ [] ∧
        ∀ c ∈ val, isAsciiDigit c = true := by
  rw [currentPattern, entryPattern_iff hlocale (fun _ => word_current) (fun _ => word_digits)]
  simp only [mem_literal, mem_oneOrMore_bracket, mem_digits]
  refine and_congr_right fun _ => ?_
  constructor
  · rintro ⟨_, rfl, val, ⟨hne, hall⟩, hentry⟩
    exact ⟨val, hentry, hne, hall⟩
  · rintro ⟨val, hentry, hne, hall⟩
    exact ⟨_, rfl, val, ⟨hne, hall⟩, hentry⟩

theorem generationPattern_iff (hlocale : LocaleSpaces spaces) :
    matchesAll (generationPattern spaces) line = true ↔ PlainLine spaces line ∧
      ∃ key val, KekRing.lineEntry line = some (key, val) ∧ key ≠ [] ∧
        (∀ c ∈ key, isAsciiDigit c = true) ∧ val.length = 64 ∧
          ∀ c ∈ val, isAsciiHexdigit c = true := by
  rw [generationPattern, entryPattern_iff hlocale (fun _ => word_digits) (fun _ => word_hex)]
  simp only [mem_oneOrMore_bracket, mem_pow_bracket, mem_digits, mem_hexDigits]
  refine and_congr_right fun _ => ?_
  constructor
  · rintro ⟨key, ⟨hne, hall⟩, val, ⟨hlength, hhex⟩, hentry⟩
    exact ⟨key, val, hentry, hne, hall, hlength, hhex⟩
  · rintro ⟨key, val, hentry, hne, hall, hlength, hhex⟩
    exact ⟨key, ⟨hne, hall⟩, val, ⟨hlength, hhex⟩, hentry⟩

/-- The files that pass the check, those that `parse` accepts among them. -/
theorem looksLikeKekFile_iff (hlocale : LocaleSpaces spaces) (content : Text) :
    looksLikeKekFile spaces content = true ↔ PlainEntries spaces content := by
  simp only [looksLikeKekFile, grepEq, Bool.and_eq_true, List.any_eq_true,
    currentPattern_iff hlocale, generationPattern_iff hlocale]
  exact ⟨fun h => ⟨h.1, h.2⟩, fun h => ⟨h.1, h.2⟩⟩

/-- The spaces of the POSIX locale. -/
def posixSpaces : List Char := ['\t', '\n', '\x0b', '\x0c', '\r', ' ']

theorem posixSpaces_locale : LocaleSpaces posixSpaces where
  ascii := by
    have hall : ∀ n < 128, (Char.ofNat n ∈ posixSpaces ↔ isWhitespace (Char.ofNat n) = true) := by
      decide
    intro c hc
    have hspec := hall c.toNat hc
    rwa [Char.ofNat_toNat] at hspec
  white := List.all_eq_true.mp (by decide)

def kekHex : Text := "1F2E3D4C5B6A79889796A5B4C3D2E1F00F1E2D3C4B5A69788796A5B4C3D2E1F0".toList

/-- The file as `deploy.sh` writes one. -/
def plainFile : Text := "current = 1\n1 = ".toList ++ kekHex ++ ['\n']

/-- The same ring with a note on the promotion. -/
def promotedFile : Text :=
  "current = 1   # promoted after the laptop rebuild\n1 = ".toList ++ kekHex ++ ['\n']

theorem plainLine_of_all {line : Text}
    (h : line.all (fun c => c != '#' && (!isWhitespace c || posixSpaces.contains c)) = true) :
    PlainLine posixSpaces line := by
  have hchar : ∀ c ∈ line, c ≠ '#' ∧ (isWhitespace c = false ∨ c ∈ posixSpaces) := by
    simpa using List.all_eq_true.mp h
  refine ⟨fun hmem => (hchar _ hmem).1 rfl, fun c hc hwhite => ?_⟩
  exact (hchar c hc).2.resolve_left (by simp [hwhite])

theorem looksLikeKekFile_plainFile : looksLikeKekFile posixSpaces plainFile = true := by
  refine (looksLikeKekFile_iff posixSpaces_locale plainFile).mpr ⟨?_, ?_⟩
  · refine ⟨"current = 1".toList, by decide +kernel, plainLine_of_all (by decide), ['1'], ?_⟩
    exact ⟨by decide +kernel, by decide, List.all_eq_true.mp (by decide)⟩
  · refine ⟨"1 = ".toList ++ kekHex, by decide +kernel, plainLine_of_all (by decide), ['1'], kekHex, ?_⟩
    exact ⟨by decide +kernel, by decide, List.all_eq_true.mp (by decide), by decide,
      List.all_eq_true.mp (by decide)⟩

/-- A comment behind `current` is read by `parse`, and refused by the check. -/
theorem not_looksLikeKekFile : (∃ ring, KekRing.parse promotedFile = .ok ring) ∧
    looksLikeKekFile posixSpaces promotedFile = false := by
  constructor
  · cases hparse : KekRing.parse promotedFile with
    | ok ring => exact ⟨ring, rfl⟩
    | error e =>
      have hok : (KekRing.parse promotedFile).toOption.isSome = true := by decide +kernel
      rw [hparse] at hok
      cases hok
  · rw [← Bool.not_eq_true, looksLikeKekFile_iff posixSpaces_locale]
    rintro ⟨⟨line, hline, hplain, val, hentry, -⟩, -⟩
    have hlines : ∀ line ∈ grepLines promotedFile, '#' ∉ line →
        (KekRing.lineEntry line).map Prod.fst ≠ some "current".toList := by decide +kernel
    exact hlines line hline hplain.no_comment (by rw [hentry]; rfl)

end KekImport

end Homescope
