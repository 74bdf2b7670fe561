import Homescope.KekFile

/-! What `KekRing::parse` accepts. -/

namespace Homescope

namespace KekRing

def lineEntry (line : Text) : Option (Text × Text) := keyVal (uncommented line)

def entries (content : Text) : List (Text × Text) := (lines content).filterMap lineEntry

def currents (es : List (Text × Text)) : List (Text × Text) :=
  es.filter fun e => e.1 = "current".toList

def generations (es : List (Text × Text)) : List (Text × Text) :=
  es.filter fun e => e.1 ≠ "current".toList

/-- The entries that a file may begin with. -/
structure Valid (es : List (Text × Text)) : Prop where
  current_le_one : (currents es).length ≤ 1
  current_ok : ∀ e ∈ currents es, ∃ version, u8FromStr e.2 = .ok version
  generation_ok : ∀ e ∈ generations es, ∃ kekVer kek, u8FromStr e.1 = .ok kekVer ∧
    Kek.tryFrom e.2 = .ok kek
  distinct : (generations es).Pairwise fun e f => u8FromStr e.1 ≠ u8FromStr f.1

/-- What the entries say, whatever their order. -/
structure Partial.Describes (state : Partial) (es : List (Text × Text)) : Prop where
  current : ∀ version, state.currentVer = some version ↔
    ∃ e ∈ currents es, u8FromStr e.2 = .ok version
  keys : ∀ kekVer kek, state.keys kekVer = some kek ↔
    ∃ e ∈ generations es, u8FromStr e.1 = .ok kekVer ∧ Kek.tryFrom e.2 = .ok kek

variable {es rest : List (Text × Text)} {state state' : Partial} {key val : Text} {lineNum : Nat}

theorem currents_append (es fs : List (Text × Text)) :
    currents (es ++ fs) = currents es ++ currents fs := List.filter_append ..

theorem generations_append (es fs : List (Text × Text)) :
    generations (es ++ fs) = generations es ++ generations fs := List.filter_append ..

theorem currents_cons (h : key = "current".toList) :
    currents ((key, val) :: rest) = (key, val) :: currents rest :=
  List.filter_cons_of_pos (decide_eq_true h)

theorem generations_cons (h : key = "current".toList) :
    generations ((key, val) :: rest) = generations rest :=
  List.filter_cons_of_neg fun hne => of_decide_eq_true hne h

theorem currents_cons_ne (h : key ≠ "current".toList) :
    currents ((key, val) :: rest) = currents rest :=
  List.filter_cons_of_neg fun heq => h (of_decide_eq_true heq)

theorem generations_cons_ne (h : key ≠ "current".toList) :
    generations ((key, val) :: rest) = (key, val) :: generations rest :=
  List.filter_cons_of_pos (decide_eq_true h)

theorem Partial.Describes.eq (h : state.Describes es) (h' : state'.Describes es) :
    state = state' := by
  have hcurrent : state.currentVer = state'.currentVer :=
    Option.ext fun version => (h.current version).trans (h'.current version).symm
  have hkeys : state.keys = state'.keys :=
    funext fun kekVer => Option.ext fun kek => (h.keys kekVer kek).trans (h'.keys kekVer kek).symm
  cases state
  cases state'
  cases hcurrent
  cases hkeys
  rfl

/-! ### One entry -/

theorem parseEntry_ok (hv : Valid es) (hd : state.Describes es)
    (h : parseEntry state lineNum key val = .ok state') :
    Valid (es ++ [(key, val)]) ∧ state'.Describes (es ++ [(key, val)]) := by
  rw [parseEntry] at h
  split at h
  · rename_i hkey
    have hcurrents : currents (es ++ [(key, val)]) = currents es ++ [(key, val)] := by
      rw [currents_append, currents_cons hkey]
      rfl
    have hgenerations : generations (es ++ [(key, val)]) = generations es := by
      rw [generations_append, generations_cons hkey]
      exact List.append_nil _
    split at h
    · cases h
    rename_i hnone
    split at h
    · cases h
    rename_i version hversion
    cases h
    have hempty : currents es = [] := by
      refine List.eq_nil_iff_forall_not_mem.mpr fun e he => hnone ?_
      obtain ⟨earlier, hearlier⟩ := hv.current_ok e he
      rw [(hd.current earlier).mpr ⟨e, he, hearlier⟩]
      rfl
    rw [hempty] at hcurrents
    refine ⟨⟨?_, ?_, ?_, ?_⟩, ⟨?_, ?_⟩⟩
    · rw [hcurrents]
      exact le_rfl
    · rw [hcurrents]
      simpa using ⟨version, hversion⟩
    · rw [hgenerations]
      exact hv.generation_ok
    · rw [hgenerations]
      exact hv.distinct
    · rw [hcurrents]
      simp [hversion]
    · rw [hgenerations]
      exact hd.keys
  · rename_i hkey
    have hcurrents : currents (es ++ [(key, val)]) = currents es := by
      rw [currents_append, currents_cons_ne hkey]
      exact List.append_nil _
    have hgenerations : generations (es ++ [(key, val)]) = generations es ++ [(key, val)] := by
      rw [generations_append, generations_cons_ne hkey]
      rfl
    split at h
    · cases h
    rename_i kekVer hkekVer
    split at h
    · cases h
    rename_i kek hkek
    split at h
    · cases h
    rename_i hfree
    cases h
    have hnew : ∀ e ∈ generations es, u8FromStr e.1 ≠ .ok kekVer := by
      intro e he hsame
      obtain ⟨_, kek', hver, hkek'⟩ := hv.generation_ok e he
      exact hfree (by rw [(hd.keys kekVer kek').mpr ⟨e, he, hsame, hkek'⟩]; rfl)
    refine ⟨⟨?_, ?_, ?_, ?_⟩, ⟨?_, ?_⟩⟩
    · rw [hcurrents]
      exact hv.current_le_one
    · rw [hcurrents]
      exact hv.current_ok
    · rw [hgenerations]
      intro e he
      rcases List.mem_append.mp he with he | he
      · exact hv.generation_ok e he
      · obtain rfl := List.mem_singleton.mp he
        exact ⟨kekVer, kek, hkekVer, hkek⟩
    · rw [hgenerations]
      refine List.pairwise_append.mpr ⟨hv.distinct, List.pairwise_singleton .., fun e he f hf => ?_⟩
      obtain rfl := List.mem_singleton.mp hf
      rw [hkekVer]
      exact hnew e he
    · rw [hcurrents]
      exact hd.current
    · intro kekVer' kek'
      rw [hgenerations]
      simp only [List.mem_append, List.mem_singleton, or_and_right, exists_or, exists_eq_left,
        ← hd.keys, hkekVer, hkek, Except.ok.injEq, Function.update_apply]
      by_cases hver : kekVer' = kekVer
      · subst hver
        have hnone := Option.not_isSome_iff_eq_none.mp hfree
        simp [hnone]
      · simp [hver, Ne.symm hver]

theorem parseEntry_error {e : KekFileError} (hd : state.Describes es)
    (h : parseEntry state lineNum key val = .error e) : ¬Valid (es ++ (key, val) :: rest) := by
  intro hv
  rw [parseEntry] at h
  split at h
  · rename_i hkey
    have hcurrents : currents (es ++ (key, val) :: rest) =
        currents es ++ (key, val) :: currents rest := by
      rw [currents_append, currents_cons hkey]
    have hok := hv.current_ok (key, val) (by rw [hcurrents]; simp)
    split at h
    · rename_i htwice
      obtain ⟨version, hversion⟩ := Option.isSome_iff_exists.mp htwice
      obtain ⟨e, he, -⟩ := (hd.current version).mp hversion
      have hle := hv.current_le_one
      have hpos := List.length_pos_of_mem he
      rw [hcurrents, List.length_append, List.length_cons] at hle
      omega
    · split at h
      · rename_i herr
        rw [herr] at hok
        exact nomatch hok.choose_spec
      · cases h
  · rename_i hkey
    have hgenerations : generations (es ++ (key, val) :: rest) =
        generations es ++ (key, val) :: generations rest := by
      rw [generations_append, generations_cons_ne hkey]
    obtain ⟨kekVer, kek, hver, hkek⟩ :=
      hv.generation_ok (key, val) (by rw [hgenerations]; simp)
    simp only [hver, hkek] at h
    split at h
    · rename_i htaken
      obtain ⟨kek', hkek'⟩ := Option.isSome_iff_exists.mp htaken
      obtain ⟨e, he, hsame, -⟩ := (hd.keys kekVer kek').mp hkek'
      have hpair := hv.distinct
      rw [hgenerations] at hpair
      exact (List.pairwise_append.mp hpair).2.2 e he _ List.mem_cons_self (hsame.trans hver.symm)
    · cases h

/-! ### The lines -/

def KeyValue (line : Text) : Prop := ∃ key val, lineEntry line = some (key, val)

theorem parseLines_ok {ls : List Text} (hv : Valid es) (hd : state.Describes es)
    (h : parseLines state lineNum ls = .ok state') :
    (∀ line ∈ ls, uncommented line ≠ [] → KeyValue line) ∧
      Valid (es ++ ls.filterMap lineEntry) ∧
      state'.Describes (es ++ ls.filterMap lineEntry) := by
  induction ls generalizing es state lineNum with
  | nil =>
    cases h
    simpa using ⟨hv, hd⟩
  | cons line ls ih =>
    simp only [parseLines] at h
    split at h
    · cases h
    rename_i next hline
    simp only [parseLine, List.isEmpty_iff] at hline
    split at hline
    · rename_i hblank
      cases hline
      have hnone : lineEntry line = none := by simp [lineEntry, hblank, keyVal, splitOnceChar]
      rw [List.filterMap_cons_none hnone]
      obtain ⟨hlines, hrest⟩ := ih hv hd h
      exact ⟨List.forall_mem_cons.mpr ⟨fun hne => absurd hblank hne, hlines⟩, hrest⟩
    · split at hline
      · cases hline
      rename_i key val hentry
      rw [← lineEntry] at hentry
      obtain ⟨hv', hd'⟩ := parseEntry_ok hv hd hline
      obtain ⟨hlines, hrest⟩ := ih hv' hd' h
      rw [List.append_assoc] at hrest
      rw [List.filterMap_cons_some (f := lineEntry) hentry]
      exact ⟨List.forall_mem_cons.mpr ⟨fun _ => ⟨key, val, hentry⟩, hlines⟩, hrest⟩

theorem parseLines_error {ls : List Text} {e : KekFileError} (hv : Valid es)
    (hd : state.Describes es) (h : parseLines state lineNum ls = .error e)
    (hlines : ∀ line ∈ ls, uncommented line ≠ [] → KeyValue line) :
    ¬Valid (es ++ ls.filterMap lineEntry) := by
  induction ls generalizing es state lineNum with
  | nil => cases h
  | cons line ls ih =>
    obtain ⟨hfirst, hlines⟩ := List.forall_mem_cons.mp hlines
    by_cases hblank : uncommented line = []
    · have hnone : lineEntry line = none := by simp [lineEntry, hblank, keyVal, splitOnceChar]
      have hline : parseLine state lineNum line = .ok state := by simp [parseLine, hblank]
      simp only [parseLines, hline] at h
      rw [List.filterMap_cons_none hnone]
      exact ih hv hd h hlines
    · obtain ⟨key, val, hentry⟩ := hfirst hblank
      have hline : parseLine state lineNum line = parseEntry state lineNum key val := by
        have hkeyVal : keyVal (uncommented line) = some (key, val) := hentry
        simp [parseLine, hblank, hkeyVal]
      rw [List.filterMap_cons_some (f := lineEntry) hentry]
      simp only [parseLines, hline] at h
      split at h
      · rename_i herr
        exact parseEntry_error hd herr
      · rename_i next hok
        obtain ⟨hv', hd'⟩ := parseEntry_ok hv hd hok
        have hrest := ih hv' hd' h hlines
        rwa [List.append_assoc] at hrest

/-! ### The file -/

/-- The grammar of a KEK file. -/
structure Grammar (content : Text) : Prop where
  key_value : ∀ line ∈ lines content, uncommented line ≠ [] → KeyValue line
  current : ∃ val version, currents (entries content) = [("current".toList, val)] ∧
    u8FromStr val = .ok version ∧
    ∃ e ∈ generations (entries content), u8FromStr e.1 = .ok version
  generation_ok : ∀ e ∈ generations (entries content), ∃ kekVer kek,
    u8FromStr e.1 = .ok kekVer ∧ Kek.tryFrom e.2 = .ok kek
  distinct : (generations (entries content)).Pairwise fun e f => u8FromStr e.1 ≠ u8FromStr f.1

variable {content content' : Text} {ring : KekRing}

theorem Grammar.valid (h : Grammar content) : Valid (entries content) := by
  obtain ⟨val, version, hcurrents, hval, -⟩ := h.current
  refine ⟨?_, ?_, h.generation_ok, h.distinct⟩
  · rw [hcurrents]
    exact le_rfl
  · rw [hcurrents]
    intro e he
    obtain rfl := List.mem_singleton.mp he
    exact ⟨version, hval⟩

theorem currents_nil : currents [] = [] := rfl

theorem generations_nil : generations [] = [] := rfl

theorem valid_nil : Valid [] := ⟨Nat.zero_le _, nofun, nofun, .nil⟩

theorem describes_nil : Partial.Describes {} [] where
  current version := by simp [currents_nil]
  keys kekVer kek := by simp [generations_nil]

theorem grammar_of_parse (h : parse content = .ok ring) :
    Grammar content ∧ Partial.Describes ⟨some ring.currentVer, ring.keys⟩ (entries content) := by
  rw [parse] at h
  split at h
  · cases h
  rename_i state hlines
  split at h
  · cases h
  rename_i currentVer hcurrent
  split at h
  · rename_i hkey
    cases h
    obtain ⟨hkeyValue, hv, hd⟩ := parseLines_ok valid_nil describes_nil hlines
    rw [List.nil_append] at hv hd
    obtain ⟨e, he, hversion⟩ := (hd.current currentVer).mp hcurrent
    obtain ⟨kek, hkek⟩ := Option.isSome_iff_exists.mp hkey
    obtain ⟨f, hf, hkekVer, -⟩ := (hd.keys currentVer kek).mp hkek
    have hsingle : currents (entries content) = [e] := by
      obtain ⟨x, hx⟩ := List.length_eq_one_iff.mp
        (le_antisymm hv.current_le_one (List.length_pos_of_mem he))
      rw [hx] at he
      rw [List.mem_singleton.mp he]
      exact hx
    have hname : e.1 = "current".toList := of_decide_eq_true (List.mem_filter.mp he).2
    refine ⟨⟨hkeyValue, ⟨e.2, currentVer, ?_, hversion, f, hf, hkekVer⟩, hv.generation_ok,
      hv.distinct⟩, ?_⟩
    · rw [hsingle, ← hname]
    · rw [← hcurrent]
      exact hd
  · cases h

theorem parse_of_grammar (h : Grammar content) : ∃ ring, parse content = .ok ring := by
  rw [parse]
  split
  · rename_i e herr
    exact absurd h.valid (parseLines_error valid_nil describes_nil herr h.key_value)
  · rename_i state hlines
    obtain ⟨-, -, hd⟩ := parseLines_ok valid_nil describes_nil hlines
    rw [List.nil_append] at hd
    obtain ⟨val, version, hcurrents, hval, f, hf, hkekVer⟩ := h.current
    have hcurrent : state.currentVer = some version :=
      (hd.current version).mpr ⟨_, by rw [← entries, hcurrents]; exact List.mem_cons_self, hval⟩
    obtain ⟨kekVer, kek, hver, hkek⟩ := h.generation_ok f hf
    obtain rfl := Except.ok.inj (hver.symm.trans hkekVer)
    have hkey : (state.keys kekVer).isSome := by
      rw [(hd.keys kekVer kek).mpr ⟨f, hf, hver, hkek⟩]
      rfl
    simp only [hcurrent, hkey, dite_true]
    exact ⟨_, rfl⟩

theorem mem_currents_congr {es fs : List (Text × Text)} (h : ∀ e, e ∈ es ↔ e ∈ fs) (e : Text × Text) :
    e ∈ currents es ↔ e ∈ currents fs := by
  rw [currents, currents, List.mem_filter, List.mem_filter, h]

theorem mem_generations_congr {es fs : List (Text × Text)} (h : ∀ e, e ∈ es ↔ e ∈ fs)
    (e : Text × Text) : e ∈ generations es ↔ e ∈ generations fs := by
  rw [generations, generations, List.mem_filter, List.mem_filter, h]

theorem Partial.Describes.congr {es fs : List (Text × Text)} (h : ∀ e, e ∈ es ↔ e ∈ fs)
    (hd : state.Describes es) : state.Describes fs where
  current version := by simp only [hd.current, mem_currents_congr h]
  keys kekVer kek := by simp only [hd.keys, mem_generations_congr h]

/-- The ring is that of the set of entries. -/
theorem parse_congr (h : parse content = .ok ring) (h' : Grammar content')
    (hsame : ∀ e, e ∈ entries content ↔ e ∈ entries content') : parse content' = .ok ring := by
  obtain ⟨ring', hring'⟩ := parse_of_grammar h'
  have hd := (grammar_of_parse h).2.congr hsame
  have heq := hd.eq (grammar_of_parse hring').2
  rw [hring']
  cases ring
  cases ring'
  cases heq
  rfl

theorem Grammar.perm (h : Grammar content) (hperm : (entries content).Perm (entries content'))
    (hlines : ∀ line ∈ lines content', uncommented line ≠ [] → KeyValue line) :
    Grammar content' := by
  have hcurrents := hperm.filter fun e => e.1 = "current".toList
  have hgenerations := hperm.filter fun e => e.1 ≠ "current".toList
  obtain ⟨val, version, hcurrent, hval, f, hf, hkekVer⟩ := h.current
  refine ⟨hlines, ⟨val, version, ?_, hval, f, hgenerations.subset hf, hkekVer⟩, ?_, ?_⟩
  · exact List.perm_singleton.mp ((hperm.filter _).symm.trans (hcurrent ▸ List.Perm.refl _))
  · exact fun e he => h.generation_ok e (hgenerations.symm.subset he)
  · exact (hgenerations.pairwise_iff fun hne => Ne.symm hne).mp h.distinct

/-- A text is read just when it is in the grammar, and as the set of its entries says. -/
theorem parse_grammar :
    (∀ content, (∃ ring, parse content = .ok ring) ↔ Grammar content) ∧
    (∀ content ring, parse content = .ok ring →
      Partial.Describes ⟨some ring.currentVer, ring.keys⟩ (entries content)) ∧
    (∀ content content' ring, parse content = .ok ring → Grammar content' →
      (∀ e, e ∈ entries content ↔ e ∈ entries content') → parse content' = .ok ring) ∧
    (∀ content content' ring, parse content = .ok ring →
      (entries content).Perm (entries content') →
      (∀ line ∈ lines content', uncommented line ≠ [] → KeyValue line) →
        parse content' = .ok ring) ∧
    ∀ content ring, parse content = .ok ring →
      ∃ kek, ring.keys ring.currentVer = some kek ∧ ring.getCurrent = (ring.currentVer, kek) := by
  refine ⟨fun content => ⟨fun ⟨_, h⟩ => (grammar_of_parse h).1, parse_of_grammar⟩,
    fun _ _ h => (grammar_of_parse h).2, fun _ _ _ => parse_congr, ?_, ?_⟩
  · intro content content' ring h hperm hlines
    exact parse_congr h ((grammar_of_parse h).1.perm hperm hlines) fun e => hperm.mem_iff
  · intro content ring h
    obtain ⟨kek, hkek⟩ := Option.isSome_iff_exists.mp ring.current_isSome
    refine ⟨kek, hkek, ?_⟩
    simp only [getCurrent, hkek, Option.get_some]

end KekRing

end Homescope
