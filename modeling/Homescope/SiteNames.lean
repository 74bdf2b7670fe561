import Homescope.DeployConfig
import Homescope.EnvelopeTopic

/-! The name of a site, which the deploy configuration, the type `Site` and the
table `sites` check each by a rule of its own. -/

namespace Homescope

namespace SiteNames

open Deploy

variable {decimal : Char → Option Nat} {s : String}

/-- The loader takes `s` as the site of a machine with a gateway. -/
def LoaderAccepts (decimal : Char → Option Nat) (s : String) : Prop :=
  ∃ raw c, load decimal raw = .ok c ∧ c.has .gateway = true ∧ c.site = s.toList

def SiteAccepts (s : String) : Prop := ∃ site, Site.fromStr s = .ok site

/-- The `CHECK` of `sites.name`, which has the pattern of the loader: `$` is
the end of the text in PostgreSQL. -/
def siteNameIsOneTopicLevel (name : String) : Bool := Regex.matchesAll siteRe name.toList

structure Agree (decimal : Char → Option Nat) (s : String) : Prop where
  loader : LoaderAccepts decimal s ↔ SiteAccepts s
  check : SiteAccepts s ↔ siteNameIsOneTopicLevel s = true

theorem mem_siteRe {w : Text} :
    w ∈ siteRe.matches' ↔ w ≠ [] ∧ ∀ c ∈ w, Site.allowed c = true := by
  have hchar : ∀ c : Char, c ∈ Regex.charRange 'a' 'z' ++ Regex.charRange '0' '9' ++ ['-'] ↔
      Site.allowed c = true := by
    intro c
    rw [List.mem_append, List.mem_append, Regex.mem_charRange (by decide),
      Regex.mem_charRange (by decide), List.mem_singleton, Site.allowed]
    simp only [Bool.or_eq_true, Bool.and_eq_true, decide_eq_true_eq, beq_iff_eq]
    rfl
  rw [siteRe, Regex.mem_oneOrMore_bracket]
  simp only [hchar]

/-- The pattern is the grammar of `Site`. -/
theorem toList_mem_siteRe : s.toList ∈ siteRe.matches' ↔ ∃ site : Site, site.name = s := by
  rw [mem_siteRe]
  constructor
  · rintro ⟨hne, hall⟩
    exact ⟨⟨s, fun h => hne (by rw [h]; rfl), hall⟩, rfl⟩
  · rintro ⟨site, rfl⟩
    exact ⟨fun h => site.name_ne (String.toList_eq_nil_iff.mp h), site.allowed_name⟩

theorem siteAccepts_iff : SiteAccepts s ↔ ∃ site : Site, site.name = s :=
  exists_congr fun _ => Site.fromStr_eq_ok

theorem check_iff : SiteAccepts s ↔ siteNameIsOneTopicLevel s = true := by
  rw [siteAccepts_iff, siteNameIsOneTopicLevel, Regex.matchesAll_iff, toList_mem_siteRe]

/-- `$` of Python also comes before a newline at the end. -/
theorem loaderAccepts_iff :
    LoaderAccepts decimal s ↔ ∃ site : Site, s = site.name ∨ s = site.name ++ "\n" := by
  constructor
  · rintro ⟨raw, c, hload, hgateway, hsite⟩
    obtain ⟨w, hw, hs⟩ := Regex.matchesLine_iff.mp ((load_loaded hload).site_matches hgateway)
    rw [← String.toList_ofList (l := w)] at hw
    obtain ⟨site, hname⟩ := toList_mem_siteRe.mp hw
    have hw : w = site.name.toList := by rw [hname, String.toList_ofList]
    rw [hsite, hw] at hs
    refine ⟨site, hs.imp String.toList_inj.mp fun h => ?_⟩
    rw [← String.toList_inj, h, String.toList_append]
    rfl
  · rintro ⟨site, hs⟩
    have hname : site.name.toList ∈ siteRe.matches' := toList_mem_siteRe.mpr ⟨site, rfl⟩
    have hne : s.toList ≠ [] := by
      obtain rfl | rfl := hs
      · exact (mem_siteRe.mp hname).1
      · simp
    have hmatch : Regex.matchesLine '\n' siteRe s.toList = true := by
      refine Regex.matchesLine_iff.mpr ⟨site.name.toList, hname, hs.imp (congrArg _) fun h => ?_⟩
      rw [h, String.toList_append]
      rfl
    exact ⟨_, _, load_gatewayToml hne hmatch (List.cons_ne_nil 'b' []), rfl, rfl⟩

/-- No name holds a newline. -/
theorem not_siteAccepts_newline (site : Site) : ¬SiteAccepts (site.name ++ "\n") := by
  rw [siteAccepts_iff]
  rintro ⟨other, h⟩
  have hallowed := other.allowed_name '\n' (by rw [h]; simp)
  revert hallowed
  decide

/-- The three agree on every text but a name of a site that a newline follows. -/
theorem validators_agree_iff : Agree decimal s ↔ ¬∃ site : Site, s = site.name ++ "\n" := by
  constructor
  · rintro hagree ⟨site, rfl⟩
    exact not_siteAccepts_newline site (hagree.loader.mp (loaderAccepts_iff.mpr ⟨site, .inr rfl⟩))
  · intro h
    refine ⟨?_, check_iff⟩
    rw [loaderAccepts_iff, siteAccepts_iff]
    constructor
    · rintro ⟨site, hs | hs⟩
      · exact ⟨site, hs.symm⟩
      · exact absurd ⟨site, hs⟩ h
    · rintro ⟨site, rfl⟩
      exact ⟨site, .inl rfl⟩

theorem not_validators_agree : ¬Agree (fun _ => none) "odin\n" := by
  intro hagree
  have hodin : SiteAccepts "odin" := ⟨_, by rfl⟩
  obtain ⟨site, hsite⟩ := siteAccepts_iff.mp hodin
  have hloader : LoaderAccepts (fun _ => none) "odin\n" :=
    loaderAccepts_iff.mpr ⟨site, .inr (by rw [hsite]; rfl)⟩
  have haccepts := hagree.loader.mp hloader
  have hname : "odin\n" = site.name ++ "\n" := by rw [hsite]; rfl
  rw [hname] at haccepts
  exact not_siteAccepts_newline site haccepts

end SiteNames

end Homescope
