import Homescope.ProfileStore

/-! Whether a URL that `login` stores is read back as it is. -/

namespace Homescope

/-- The URL is read as itself, trimmed at both ends, and a profile that has it
resolves to it. -/
structure SettledUrl (url : Text) : Prop where
  parse : parseUrl url = .ok url
  start : ∀ c ∈ url.head?, isWhitespace c = false
  stop : ∀ c ∈ url.getLast?, isWhitespace c = false ∧ c ≠ '/'
  resolve : ∀ (store : ProfileStore) (profile : String) (credentials : Credentials)
    (envToken : Option String),
    (store.withLogin profile url credentials).resolve (some profile) none envToken =
      .ok ⟨profile, url, credentials.token⟩

/-- The slashes at the end of the URL have whitespace before them. -/
def SpacedSlash (url : Text) : Prop :=
  ∃ before w k after, url = before ++ w :: (List.replicate (k + 1) '/' ++ after) ∧
    isWhitespace w = true ∧ ∀ c ∈ after, isWhitespace c = true

theorem parseUrl_congr {u v : Text} (h : trimUrl u = trimUrl v) : parseUrl u = parseUrl v := by
  rw [trimUrl, trimUrl] at h
  rw [parseUrl, parseUrl, h]

theorem parseUrl_ne_nil {u r : Text} (h : parseUrl u = .ok r) : r ≠ [] := by
  rintro rfl
  have hnil := parseUrl_eq_ok h
  rw [trimUrl] at hnil
  rw [parseUrl, ← hnil] at h
  cases h

theorem trimUrl_eq_self {r : Text} (hstart : ∀ c ∈ r.head?, isWhitespace c = false)
    (hstop : ∀ c ∈ r.getLast?, isWhitespace c = false ∧ c ≠ '/') : trimUrl r = r := by
  rw [trimUrl, trim_eq_self_iff.mpr ⟨hstart, fun c hc => (hstop c hc).1⟩]
  change r.rdropWhile (· == '/') = r
  rw [List.rdropWhile_eq_self_iff]
  intro hne
  simp [(hstop _ (List.getLast?_eq_some_getLast hne)).2]

theorem resolve_withLogin {url : Text} (h : parseUrl url = .ok url) (store : ProfileStore)
    (profile : String) (credentials : Credentials) (envToken : Option String) :
    (store.withLogin profile url credentials).resolve (some profile) none envToken =
      .ok ⟨profile, url, credentials.token⟩ := by
  simp only [ProfileStore.resolve, ProfileStore.withLogin, Option.some_or, Function.update_self, h]
  rfl

/-- The trimmed string between what the two trimmings take off. -/
theorem exists_trimUrl (u : Text) : ∃ before k after,
    u = before ++ (trimUrl u ++ List.replicate k '/' ++ after) ∧
    trim u = trimUrl u ++ List.replicate k '/' ∧ ∀ c ∈ after, isWhitespace c = true := by
  have hslash := List.rdropWhile_append_rtakeWhile (p := (· == '/')) (l := trim u)
  have hreplicate : (trim u).rtakeWhile (· == '/') =
      List.replicate ((trim u).rtakeWhile (· == '/')).length '/' :=
    List.eq_replicate_of_mem fun c hc => by simpa using List.mem_rtakeWhile_imp hc
  rw [hreplicate] at hslash
  have hstart := List.takeWhile_append_dropWhile (p := isWhitespace) (l := u)
  have hstop := List.rdropWhile_append_rtakeWhile (p := isWhitespace)
    (l := u.dropWhile isWhitespace)
  refine ⟨u.takeWhile isWhitespace, _, (u.dropWhile isWhitespace).rtakeWhile isWhitespace, ?_,
    hslash.symm, fun c hc => List.mem_rtakeWhile_imp hc⟩
  change u = _ ++ ((trim u).rdropWhile (· == '/') ++ _ ++ _)
  rw [hslash]
  exact hstart.symm.trans (congrArg _ hstop.symm)

theorem settledUrl_of_not_spacedSlash {u r : Text} (h : parseUrl u = .ok r) (hu : ¬SpacedSlash u) :
    SettledUrl r := by
  obtain ⟨before, k, after, hsplit, htrim, hafter⟩ := exists_trimUrl u
  have hne := parseUrl_ne_nil h
  obtain rfl := parseUrl_eq_ok h
  obtain ⟨hhead, hlast⟩ := trim_eq_self_iff.mp (trim_trim u)
  have hstart : ∀ c ∈ (trimUrl u).head?, isWhitespace c = false := by
    intro c hc
    refine hhead c ?_
    rw [htrim, List.head?_append, Option.mem_def.mp hc, Option.some_or]
    rfl
  obtain ⟨front, last, hr⟩ := (List.eq_nil_or_concat' (trimUrl u)).resolve_left hne
  have hslash : last ≠ '/' := by
    have hidem := List.rdropWhile_idempotent (· == '/') (trim u)
    have hr' : (trim u).rdropWhile (· == '/') = front ++ [last] := hr
    rw [hr'] at hidem
    simpa using List.rdropWhile_eq_self_iff.mp hidem
  have hspace : isWhitespace last = false := by
    cases k with
    | zero =>
      refine hlast last ?_
      rw [htrim, hr, List.replicate_zero, List.append_nil]
      simp
    | succ k =>
      by_contra hspace
      refine hu ⟨before ++ front, last, k, after, ?_, by simpa using hspace, hafter⟩
      rw [hr] at hsplit
      rw [hsplit]
      simp
  have hstop : ∀ c ∈ (trimUrl u).getLast?, isWhitespace c = false ∧ c ≠ '/' := by
    intro c hc
    obtain rfl : last = c := by simpa [hr] using hc
    exact ⟨hspace, hslash⟩
  have hparse : parseUrl (trimUrl u) = .ok (trimUrl u) :=
    (parseUrl_congr (trimUrl_eq_self hstart hstop)).trans h
  exact ⟨hparse, hstart, hstop, resolve_withLogin hparse⟩

theorem trimEndMatches_append_replicate (c : Char) (s : Text) (k : Nat) :
    trimEndMatches c (s ++ List.replicate k c) = trimEndMatches c s := by
  rw [trimEndMatches, List.reverse_append, List.dropWhile_append_of_pos (by simp), trimEndMatches]

theorem trim_slashes {s : Text} (h : ∀ c ∈ s.head?, isWhitespace c = false) (k : Nat) :
    trim (s ++ List.replicate (k + 1) '/') = s ++ List.replicate (k + 1) '/' := by
  have hslash : isWhitespace '/' = false := by decide
  refine trim_eq_self_iff.mpr ⟨fun c hc => ?_, fun c hc => ?_⟩
  · cases s with
    | nil =>
      obtain rfl : '/' = c := by simpa [List.replicate_succ] using hc
      exact hslash
    | cons d s => exact h c hc
  · obtain rfl : '/' = c := by simpa [List.getLast?_replicate] using hc
    exact hslash

/-- What is left of a URL with a spaced slash ends in the space. -/
theorem getLast?_of_spacedSlash {u r : Text} (h : parseUrl u = .ok r) (hu : SpacedSlash u) :
    r.getLast?.any isWhitespace = true := by
  obtain ⟨before, w, k, after, rfl, hw, hafter⟩ := hu
  have hne := parseUrl_ne_nil h
  obtain rfl := parseUrl_eq_ok h
  have hpre : ∀ c ∈ before.takeWhile isWhitespace, isWhitespace c = true :=
    fun c hc => List.mem_takeWhile_imp hc
  have hhead := List.head?_dropWhile_not isWhitespace before
  rw [← List.takeWhile_append_dropWhile (p := isWhitespace) (l := before), trimUrl] at hne ⊢
  generalize before.takeWhile isWhitespace = pre at hpre hne ⊢
  cases hrest : before.dropWhile isWhitespace with
  | nil =>
    -- only spaces before the slashes: nothing would be left
    have htrim := trim_append_append (s := pre ++ [w]) (t := after)
      (by simpa [or_imp, forall_and] using ⟨hpre, hw⟩) (trim_slashes (s := []) (by rintro _ ⟨⟩) k) hafter
    rw [hrest] at hne
    simp only [List.append_nil, List.append_assoc, List.singleton_append, List.nil_append]
      at hne htrim
    rw [htrim, ← List.nil_append (List.replicate _ _), trimEndMatches_append_replicate] at hne
    exact absurd rfl hne
  | cons d rest =>
    have hd : isWhitespace d = false := by simpa [hrest] using hhead
    have htrim := trim_append_append hpre
      (trim_slashes (s := d :: rest ++ [w]) (by simpa using hd) k) hafter
    have hslash : (w == '/') = false := by
      apply beq_eq_false_iff_ne.mpr
      rintro rfl
      revert hw
      decide
    simp only [List.append_assoc, List.cons_append, List.nil_append] at htrim ⊢
    rw [htrim]
    have hsplit : d :: (rest ++ w :: List.replicate (k + 1) '/') =
        (d :: rest ++ [w]) ++ List.replicate (k + 1) '/' := by simp
    rw [hsplit, trimEndMatches_append_replicate]
    change ((d :: rest ++ [w]).rdropWhile (· == '/')).getLast?.any isWhitespace = true
    rw [List.rdropWhile_concat_neg _ _ _ (by simp [hslash]), List.getLast?_concat]
    exact hw

theorem parseUrl_settled {u r : Text} (h : parseUrl u = .ok r) : SettledUrl r ↔ ¬SpacedSlash u := by
  refine ⟨fun hr hu => ?_, settledUrl_of_not_spacedSlash h⟩
  have hany := getLast?_of_spacedSlash h hu
  cases hlast : r.getLast? with
  | none =>
    rw [hlast] at hany
    cases hany
  | some w =>
    rw [hlast, Option.any_some, (hr.stop w hlast).1] at hany
    cases hany

/-- A URL without such a slash. -/
theorem parseUrl_settled_localhost : SettledUrl "http://localhost:3000".toList ↔
    ¬SpacedSlash " http://localhost:3000/ ".toList :=
  parseUrl_settled (by decide +kernel)

theorem not_parseUrl_settled : ¬∀ u r, parseUrl u = .ok r → SettledUrl r := by
  intro h
  have hparse := (h "https://api.example.com /".toList "https://api.example.com ".toList
    (by decide +kernel)).parse
  revert hparse
  decide +kernel

end Homescope
