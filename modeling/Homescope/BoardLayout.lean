import Homescope.Chip
import Homescope.Elf
import Homescope.LinkerScript
import Homescope.SeqCounter
import Homescope.ToolOnly

/-! The memory layout that the build script derives for a board
(`firmware/board/build.rs`), and what reads it: the linker, the provisioning
tool and the packet counter. -/

namespace Homescope

open Commands ToolM
open LinkerScript (Expr Region Script hex hexPadded)

/-- The facts of a board. -/
structure BoardMemory where
  featureEnv : String
  name : String
  appStart : Word
  flashTop : Word
  flashTopDesc : String
  ramStart : Word
  ramLen : Word
  notes : List String

structure Layout where
  board : BoardMemory
  storageStart : Word
  flashLen : Word

namespace BoardMemory

def pageSize : Word := 4096

def storageLen : Word := 2 * pageSize

/-- `a.checked_sub(b)`, and `a - b` where `none` is the overflow. -/
def checkedSub (a b : Word) : Option Word := if b ≤ a then some (a - b) else none

/-- The message of a panic is the error. -/
def derive (board : BoardMemory) : Except String Layout :=
  let { name, appStart, flashTop, .. } := board
  if appStart % pageSize ≠ 0 then
    .error (name ++ ": app_start " ++ hex appStart.toNat ++ " is not page-aligned")
  else if flashTop % pageSize ≠ 0 then
    .error (name ++ ": flash_top " ++ hex flashTop.toNat ++ " is not page-aligned")
  else match checkedSub flashTop storageLen with
    | none => .error (name ++ ": flash_top " ++ hex flashTop.toNat ++ " leaves no room for STORAGE")
    | some storageStart => match checkedSub storageStart appStart with
      | none => .error (name ++ ": no room for the application between app_start " ++
          hex appStart.toNat ++ " and STORAGE at " ++ hex storageStart.toNat)
      | some flashLen =>
        if 0 < flashLen then .ok { board, storageStart, flashLen }
        else .error (name ++ ": application region is empty")

def bare1Mb : BoardMemory where
  featureEnv := ""
  name := ""
  appStart := 0
  flashTop := 0x00100000
  flashTopDesc := "top of the 1 MB flash"
  ramStart := 0x20000000
  ramLen := 256 * 1024
  notes := []

def xiaoBootloaderNote : String :=
  "Factory MBR, SoftDevice S140 and UF2 bootloader erased 2026-09-19; a XIAO " ++
    "still carrying them must be chip-erased and re-keyed — see docs/flashing.md."

def boards : List BoardMemory :=
  [{ bare1Mb with
      featureEnv := "CARGO_FEATURE_DB40"
      name := "Raytac MDBT50Q-DB-40"
      notes := ["Bare module: no MBR, no SoftDevice, no bootloader."] },
    { bare1Mb with
      featureEnv := "CARGO_FEATURE_XIAO_EXPANSION"
      name := "Seeed XIAO nRF52840 Plus on the expansion board"
      notes := ["SHT45 on the expansion board's Grove I2C header, permanently",
        "powered. The development setup.", "", xiaoBootloaderNote] },
    { bare1Mb with
      featureEnv := "CARGO_FEATURE_XIAO_BREADBOARD"
      name := "Seeed XIAO nRF52840 Plus on a breadboard"
      notes := ["SHT45 direct-wired with a gated power line. The alkaline soak-test",
        "node: the sensor rail is switched off between cycles, because",
        "battery longevity is the thing being measured.", "", xiaoBootloaderNote] }]

def featureList : String := ", ".intercalate (boards.map featureEnv)

/-- `enabled` tells which variables cargo has set. -/
def selectBoard (enabled : String → Bool) : Except String BoardMemory :=
  match boards.filter fun board => enabled board.featureEnv with
  | [board] => .ok board
  | [] => .error ("no board feature selected — enable exactly one of: " ++ featureList)
  | selected => .error ("multiple board features enabled (" ++
      ", ".intercalate (selected.map name) ++ "); Cargo features are additive, so " ++
      "\x60--features board-<x>\x60 still pulls in the default. Pass " ++
      "\x60--no-default-features\x60 alongside the one you want.")

theorem checkedSub_eq_some {a b c : Word} (h : checkedSub a b = some c) :
    b.toNat + c.toNat = a.toNat := by
  rw [checkedSub] at h
  split at h
  · rename_i hle
    obtain rfl := Option.some.inj h
    rw [BitVec.toNat_sub_of_le hle]
    exact Nat.add_sub_of_le hle
  · cases h

theorem isSome_checkedSub {a b : Word} (h : b.toNat ≤ a.toNat) : ∃ c, checkedSub a b = some c :=
  ⟨a - b, if_pos h⟩

/-- What the assertions leave of the facts of a board. -/
structure Derived (board : BoardMemory) (layout : Layout) : Prop where
  board_eq : layout.board = board
  appStart : board.appStart.toNat % 4096 = 0
  flashTop : board.flashTop.toNat % 4096 = 0
  storage : layout.storageStart.toNat + 8192 = board.flashTop.toNat
  flash : board.appStart.toNat + layout.flashLen.toNat = layout.storageStart.toNat
  flash_pos : 0 < layout.flashLen.toNat

theorem derive_eq_ok {board : BoardMemory} {layout : Layout} (h : board.derive = .ok layout) :
    Derived board layout := by
  have haligned {w : Word} (hw : ¬w % pageSize ≠ 0) : w.toNat % 4096 = 0 := by
    have hzero := congrArg BitVec.toNat (not_not.mp hw)
    rwa [BitVec.toNat_umod] at hzero
  simp only [derive] at h
  split at h
  · cases h
  rename_i happ
  split at h
  · cases h
  rename_i htop
  split at h
  · cases h
  rename_i storageStart hstorage
  split at h
  · cases h
  rename_i flashLen hflash
  split at h
  · rename_i hpos
    cases h
    have hstorage := checkedSub_eq_some hstorage
    exact ⟨rfl, haligned happ, haligned htop, (Nat.add_comm ..).trans hstorage,
      checkedSub_eq_some hflash, hpos⟩
  · cases h

/-- Every board of the table is laid out. -/
theorem boards_derive : ∀ board ∈ boards, ∃ layout, board.derive = .ok layout := by
  intro board hboard
  have hbare : board.appStart = bare1Mb.appStart ∧ board.flashTop = bare1Mb.flashTop := by
    simp only [boards, List.mem_cons, List.not_mem_nil, or_false] at hboard
    rcases hboard with rfl | rfl | rfl <;> exact ⟨rfl, rfl⟩
  simp only [derive, hbare]
  exact ⟨_, rfl⟩

theorem selectBoard_derive {enabled : String → Bool} {board : BoardMemory}
    (h : selectBoard enabled = .ok board) : ∃ layout, board.derive = .ok layout := by
  rw [selectBoard] at h
  split at h
  · rename_i selected hselected
    cases h
    have hmem : board ∈ boards.filter fun board => enabled board.featureEnv := by
      rw [hselected]
      exact List.mem_singleton_self board
    exact boards_derive board (List.mem_filter.mp hmem).1
  · cases h
  · cases h

end BoardMemory

namespace Layout

open BoardMemory (checkedSub storageLen Derived derive_eq_ok)

def flashRegion (self : Layout) : Region :=
  ⟨"FLASH", self.board.appStart.toNat, self.flashLen.toNat⟩

def storageRegion (self : Layout) : Region :=
  ⟨"STORAGE", self.storageStart.toNat, storageLen.toNat⟩

def ramRegion (self : Layout) : Region :=
  ⟨"RAM", self.board.ramStart.toNat, self.board.ramLen.toNat⟩

/-- What the text says to the linker. -/
def script (self : Layout) : Script where
  regions := [self.flashRegion, self.storageRegion, self.ramRegion]
  symbols := [("__storage_start", .origin "STORAGE"),
    ("__storage_end", .add (.origin "STORAGE") (.length "STORAGE"))]
  asserts := [
    (.eq (.mod (.origin "STORAGE") (.decimal BoardMemory.pageSize.toNat)) (.decimal 0),
      "STORAGE must start on a flash page boundary"),
    (.eq (.mod (.length "STORAGE") (.decimal BoardMemory.pageSize.toNat)) (.decimal 0),
      "STORAGE must be a whole number of flash pages"),
    (.eq (.add (.origin "FLASH") (.length "FLASH")) (.origin "STORAGE"),
      "FLASH must abut STORAGE — no gap, no overlap"),
    (.eq (.add (.origin "STORAGE") (.length "STORAGE")) (.hexadecimal self.board.flashTop.toNat),
      "STORAGE must end at the " ++ self.board.flashTopDesc)]

def notesText (notes : List String) : String :=
  String.join (notes.map fun line => if line.isEmpty then "\n" else "   " ++ line ++ "\n")

/-- `name` filled up with spaces to `width` characters. -/
def padded (width : Nat) (name : String) : String :=
  name ++ String.ofList (List.replicate (width - name.length) ' ')

def regionText (r : Region) : String :=
  "  " ++ padded 7 r.name ++ " : ORIGIN = " ++ hexPadded 8 r.origin ++ ", LENGTH = " ++
    hex r.length ++ "\n"

def symbolText (symbol : String × Expr) : String :=
  padded 15 symbol.1 ++ " = " ++ symbol.2.text ++ ";\n"

def assertText (check : Expr × String) : String :=
  "ASSERT(" ++ check.1.text ++ ",\n  \"" ++ check.2 ++ "\");\n"

/-- The script as the linker reads it. -/
def scriptText (script : Script) : String :=
  "MEMORY\n\x7b\n" ++ String.join (script.regions.map regionText) ++ "\x7d\n\n" ++
    "/* STORAGE holds no output section, so nothing lands in the ELF. These symbols\n" ++
    "   have no contents — their *addresses* are the payload. */\n" ++
    String.join (script.symbols.map symbolText) ++ "\n" ++
    String.join (script.asserts.map assertText)

/-- What the comment at the top says. -/
def comment (self : Layout) (appEnd storageEnd : Word) : String :=
  let flashLenK := self.flashLen / 1024
  let storageLenK := storageLen / 1024
  " GENERATED by homescope-board/build.rs — do not edit.\n" ++
    "   Change the board tables in that build script instead.\n\n" ++
    "   Board: " ++ self.board.name ++ "\n\n" ++
    notesText self.board.notes ++ "\n   Flash map:\n     " ++
    hexPadded 8 self.board.appStart.toNat ++ " - " ++ hexPadded 8 appEnd.toNat ++
    "  application            (" ++ toString flashLenK.toNat ++ " KiB)\n     " ++
    hexPadded 8 self.storageStart.toNat ++ " - " ++ hexPadded 8 storageEnd.toNat ++
    "  seq checkpoint storage (" ++ toString storageLenK.toNat ++ " KiB)\n\n" ++
    "   Application ceiling: " ++ hexPadded 8 self.board.flashTop.toNat ++ " — " ++
    self.board.flashTopDesc ++ "\n"

/-- `none` is an overflow. -/
def render (self : Layout) : Option String := do
  let appEnd ← checkedSub self.storageStart 1
  let storageEnd ← checkedSub self.board.flashTop 1
  return "/*" ++ self.comment appEnd storageEnd ++ "*/\n\n" ++ scriptText self.script

/-! ### The linker -/

variable {board : BoardMemory} {layout : Layout}

/-- The script is written under a comment with the last addresses of the two
regions. -/
def Renders (layout : Layout) : Prop :=
  ∃ appEnd storageEnd : Word, appEnd.toNat + 1 = layout.storageStart.toNat ∧
    storageEnd.toNat + 1 = layout.board.flashTop.toNat ∧
    layout.render = some ("/*" ++ layout.comment appEnd storageEnd ++ "*/\n\n" ++ scriptText layout.script)

theorem render_derived (h : Derived board layout) : layout.Renders := by
  have hstorage := h.storage
  have hflash := h.flash
  have hpos := h.flash_pos
  obtain ⟨appEnd, happ⟩ := BoardMemory.isSome_checkedSub (a := layout.storageStart) (b := 1)
    (show 1 ≤ _ by omega)
  obtain ⟨storageEnd, htop⟩ := BoardMemory.isSome_checkedSub (a := layout.board.flashTop) (b := 1)
    (by rw [h.board_eq]; show 1 ≤ _; omega)
  have hends := BoardMemory.checkedSub_eq_some happ
  have hends' := BoardMemory.checkedSub_eq_some htop
  refine ⟨appEnd, storageEnd, (Nat.add_comm ..).trans hends, (Nat.add_comm ..).trans hends', ?_⟩
  rw [render, happ, htop]
  rfl

def storageSymbols (layout : Layout) : List (String × Nat) :=
  [("__storage_start", layout.storageStart.toNat), ("__storage_end", layout.board.flashTop.toNat)]

/-- Every assertion of the script holds, and the symbols are the bounds of the
region. -/
theorem script_links (h : Derived board layout) : layout.script.Links layout.storageSymbols := by
  obtain ⟨rfl, happ, htop, hstorage, hflash, -⟩ := h
  have hnames : (layout.script.regions.map Region.name).Nodup := by
    change ["FLASH", "STORAGE", "RAM"].Nodup
    decide
  have hf : layout.flashRegion ∈ layout.script.regions := by simp [script]
  have hs : layout.storageRegion ∈ layout.script.regions := by simp [script]
  have horigin := LinkerScript.eval_origin hs hnames
  have hlength := LinkerScript.eval_length hs hnames
  have hstop : layout.storageRegion.stop = layout.board.flashTop.toNat := hstorage
  have hend := LinkerScript.eval_stop hs hnames
  rw [hstop] at hend
  have habut := LinkerScript.eval_stop hf hnames
  rw [show layout.flashRegion.stop = layout.storageRegion.origin from hflash] at habut
  have haligned : layout.storageRegion.origin % BoardMemory.pageSize.toNat = 0 := by
    change layout.storageStart.toNat % 4096 = 0
    omega
  have hmod := LinkerScript.eval_mod horigin (b := .decimal BoardMemory.pageSize.toNat) rfl (by decide)
  rw [haligned] at hmod
  have hwhole := LinkerScript.eval_mod hlength (b := .decimal BoardMemory.pageSize.toNat) rfl (by decide)
  have hpages : layout.storageRegion.length % BoardMemory.pageSize.toNat = 0 := by
    change BoardMemory.storageLen.toNat % _ = 0
    decide
  rw [hpages] at hwhole
  constructor
  · simp only [script, List.mem_cons, List.not_mem_nil, or_false]
    rintro _ (rfl | rfl | rfl | rfl)
    · exact LinkerScript.holds_eq hmod rfl
    · exact LinkerScript.holds_eq hwhole rfl
    · exact LinkerScript.holds_eq habut horigin
    · exact LinkerScript.holds_eq hend rfl
  · exact .cons ⟨rfl, horigin⟩ (.cons ⟨rfl, hend⟩ .nil)

end Layout

/-! ### The provisioning tool -/

namespace Elf

/-- The address of a symbol after one more of the table. -/
def noteName (name : String) (found : Option Nat) (symbol : Symbol) : Option Nat :=
  if symbol.stShndx = shnAbs ∧ symbol.name = some name then some symbol.address else found

theorem note_eq (found : Option Nat × Option Nat) (symbol : Symbol) : note found symbol =
    (noteName storageStart found.1 symbol, noteName storageEnd found.2 symbol) := by
  have hne : storageStart ≠ storageEnd := by decide
  by_cases habs : symbol.stShndx = shnAbs
  · by_cases hstart : symbol.name = some storageStart
    · simp [note, noteName, habs, hstart, hne]
    · by_cases hend : symbol.name = some storageEnd
      · simp [note, noteName, habs, hend, hne.symm]
      · simp [note, noteName, habs, hstart, hend]
  · simp [note, noteName, habs]

theorem foldl_note (symbols : List Symbol) (found : Option Nat × Option Nat) :
    symbols.foldl note found =
      (symbols.foldl (noteName storageStart) found.1, symbols.foldl (noteName storageEnd) found.2) := by
  induction symbols generalizing found with
  | nil => rfl
  | cons symbol symbols ih => rw [List.foldl_cons, ih, note_eq]; rfl

/-- The file holds each symbol of a link as an absolute one, and no other of
its name. -/
def Carries (file : File) (symbols : List (String × Nat)) : Prop :=
  ∀ p ∈ symbols, ⟨shnAbs, some p.1, p.2⟩ ∈ file.symbols ∧
    ∀ s ∈ file.symbols, s.stShndx = shnAbs → s.name = some p.1 → s.address = p.2

theorem foldl_noteName {name : String} {address : Nat} {symbols : List Symbol} {found : Option Nat}
    (hall : ∀ s ∈ symbols, s.stShndx = shnAbs → s.name = some name → s.address = address)
    (h : found = some address ∨ ⟨shnAbs, some name, address⟩ ∈ symbols) :
    symbols.foldl (noteName name) found = some address := by
  induction symbols generalizing found with
  | nil => simpa using h
  | cons symbol symbols ih =>
    obtain ⟨hsymbol, hall⟩ := List.forall_mem_cons.mp hall
    refine ih hall ?_
    by_cases hnamed : symbol.stShndx = shnAbs ∧ symbol.name = some name
    · exact .inl (by rw [noteName, if_pos hnamed, hsymbol hnamed.1 hnamed.2])
    · rw [noteName, if_neg hnamed]
      refine h.imp_right fun hmem => (List.mem_cons.mp hmem).resolve_left ?_
      rintro rfl
      exact hnamed ⟨rfl, rfl⟩

theorem storage_of_carries {file : File} {start stop : Nat}
    (h : Carries file [(storageStart, start), (storageEnd, stop)]) (hlt : start < stop)
    (hstart : start % pageSize = 0) (hstop : stop % pageSize = 0) :
    storage file = .ok (some (start, stop)) := by
  obtain ⟨hmem, hall⟩ := h (storageStart, start) (by simp)
  obtain ⟨hmem', hall'⟩ := h (storageEnd, stop) (by simp)
  rw [storage, foldl_note, foldl_noteName hall (.inr hmem), foldl_noteName hall' (.inr hmem')]
  simp only [Nat.not_le.mpr hlt, hstart, hstop, if_false, ne_eq, not_true_eq_false, or_self]

end Elf

theorem never_call {ε ε' α : Type} {e : ε} {p : Prog ToolCmd ToolCmd.Answer (Except ε' α)} {wrap : ε' → ε}
    (h : Issues (fun _ => True) p) (hwrap : ∀ e', wrap e' ≠ e) : Never e (ToolM.call p wrap) := by
  refine call_only (h.mono fun r _ => ?_)
  cases r with
  | ok a => rintro ⟨⟩
  | error e' =>
    intro he
    exact hwrap e' (Except.error.inj he)

/-- The first check of `erase_storage` passes. -/
theorem eraseStorage_never {start stop : Nat} (hlt : start < stop) (hstart : start % pageSize = 0)
    (hstop : stop % pageSize = 0) (a b : Nat) :
    Never (.notPageAligned a b) (Chip.eraseStorage start stop) := by
  have hvalid : ¬(start ≥ stop ∨ start % pageSize ≠ 0 ∨ stop % pageSize ≠ 0) := by omega
  rw [Chip.eraseStorage]
  simp only [hvalid, if_false]
  refine .bind (never_call (.command trivial) (by rintro _ ⟨⟩)) fun _ => ?_
  refine .bind (never_call (withMode_issues (fun _ => trivial) trivial
    (erasePages_issues (fun _ _ => trivial) trivial)) (by rintro _ ⟨⟩)) fun _ => ?_
  refine .bind (never_call (findMismatchIn_issues (fun _ _ => trivial) _ _) (by rintro _ ⟨⟩)) fun mismatch => ?_
  cases mismatch <;> rintro ⟨⟩

/-! ### The packet counter -/

namespace SeqCounter

theorem scanSlots_never (storage : Storage) (slots : List Slot) (best : Word × Slot) :
    Never .panic (scanSlots storage slots best) := by
  induction slots generalizing best with
  | nil => rintro ⟨⟩
  | cons slot slots ih =>
    refine .bind ⟨trivial, fun answer => ?_⟩ fun reservedUntil => ?_
    · cases answer <;> rintro ⟨⟩
    · split
      · rintro ⟨⟩
      · split
        · exact ih _
        · exact ih _

/-- The assertion on the size of the region holds. -/
theorem load_never {storage : Storage} (h : storage.stop - storage.start = totalSlots * 4) :
    Never .panic (load storage) := by
  have hpages : ∀ (pages : List Page) (best : Word × Slot), Never .panic (scanPages storage pages best) := by
    intro pages
    induction pages with
    | nil => exact fun _ => by rintro ⟨⟩
    | cons page pages ih => exact fun best => .bind (scanSlots_never storage page.slots best) ih
  rw [load, assertEq, if_pos h]
  refine .bind (by rintro ⟨⟩) fun _ => .bind (hpages _ _) fun best => ?_
  rintro ⟨⟩

end SeqCounter

/-- What is asked of a layout: its script is what is written and it links, its
regions abut without gap or overlap, and whatever reads the symbols accepts them. -/
structure Layout.Serves (board : BoardMemory) (layout : Layout) : Prop where
  rendered : layout.Renders
  regions : layout.script.regions = [⟨"FLASH", board.appStart.toNat, layout.flashLen.toNat⟩,
    ⟨"STORAGE", layout.storageStart.toNat, 2 * pageSize⟩,
    ⟨"RAM", board.ramStart.toNat, board.ramLen.toNat⟩]
  flash : board.appStart.toNat + layout.flashLen.toNat = layout.storageStart.toNat
  storage : layout.storageStart.toNat + 2 * pageSize = board.flashTop.toNat
  links : layout.script.Links
    [("__storage_start", layout.storageStart.toNat), ("__storage_end", board.flashTop.toNat)]
  elf : ∀ file : Elf.File, Elf.Carries file
      [("__storage_start", layout.storageStart.toNat), ("__storage_end", board.flashTop.toNat)] →
    Elf.storage file = .ok (some (layout.storageStart.toNat, board.flashTop.toNat))
  erase : ∀ a b, Never (.notPageAligned a b)
    (Chip.eraseStorage layout.storageStart.toNat board.flashTop.toNat)
  load : Never .panic (SeqCounter.load ⟨layout.storageStart.toNat, board.flashTop.toNat⟩)

end Homescope
