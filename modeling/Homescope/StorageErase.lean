import Homescope.Bench
import Homescope.Elf
import Homescope.ToolOnly

/-! The erase of the seq counter after an image was flashed: which pages
`erase_storage` asks the NVMC to erase (`provision/src/chip.rs`), against the
flash that the image occupies (`provision/src/elf.rs`). -/

namespace Homescope

open Commands ToolM

namespace Chip

/-! ### The pages -/

/-- The words written to `ERASEPAGE`, in order. -/
def eraseRequests : List Word → (c : ToolCmd) → c.Answer → List Word
  | pages, .writeWord32 address word, _ =>
    if address = nvmcErasePage then pages ++ [word] else pages
  | pages, _, _ => pages

variable {start stop : Nat}

theorem mem_storagePages (hstart : start % pageSize = 0) (hstop : stop % pageSize = 0) {page : Nat} :
    page ∈ storagePages start stop ↔ start ≤ page ∧ page < stop ∧ page % pageSize = 0 := by
  simp only [storagePages, List.mem_map, List.mem_range]
  unfold pageSize at *
  constructor
  · rintro ⟨i, hi, rfl⟩
    omega
  · rintro ⟨hle, hlt, hpage⟩
    exact ⟨(page - start) / 4096, by omega, by omega⟩

/-- The pages of an aligned region are the region. -/
theorem storagePages_cover (hstart : start % pageSize = 0) (hstop : stop % pageSize = 0) (a : Nat) :
    (∃ page ∈ storagePages start stop, page ≤ a ∧ a < page + pageSize) ↔ start ≤ a ∧ a < stop := by
  simp only [mem_storagePages hstart hstop]
  unfold pageSize at *
  constructor
  · rintro ⟨page, ⟨hle, hlt, hpage⟩, hpa, hap⟩
    omega
  · rintro ⟨hle, hlt⟩
    exact ⟨a - a % 4096, by omega, by omega, by omega⟩

/-- A prefix of the pages is asked for wherever the loop stops, and all of them
where it ends. -/
theorem erasePages_requests {pages : List Nat} {done all : List Word}
    (h : done ++ pages.map (BitVec.ofNat 32) <+: all) :
    Safe (monitor eraseRequests) (· <+: all) (Nvmc.erasePages pages).run
      (fun r asked => ∀ u, r = .ok u → asked = done ++ pages.map (BitVec.ofNat 32)) done := by
  induction pages generalizing done with
  | nil =>
    rw [List.map_nil, List.append_nil] at h ⊢
    exact ⟨h, fun _ _ => rfl⟩
  | cons page pages ih =>
    have hcons : done ++ (page :: pages).map (BitVec.ofNat 32) =
        (done ++ [BitVec.ofNat 32 page]) ++ pages.map (BitVec.ofNat 32) := by simp
    rw [hcons] at h ⊢
    have hrest := (List.prefix_append _ _).trans h
    have hdone : done <+: all := (List.prefix_append _ _).trans hrest
    apply Safe.bindExcept
    apply Safe.bindExcept
    refine call_safe ⟨hdone, ?_⟩
    rintro answer _ rfl
    rw [eraseRequests, if_pos rfl]
    refine ⟨hrest, ?_⟩
    cases answer with
    | error e => exact ⟨hrest, hrest, by rintro _ ⟨⟩⟩
    | ok _ =>
      refine ⟨hrest, ?_⟩
      rintro answer _ rfl
      cases answer with
      | error e => exact ⟨hrest, hrest, by rintro _ ⟨⟩⟩
      | ok _ => exact ⟨hrest, ih h⟩

theorem setMode_unnoticed (asked : List Word) (mode : NvmcMode) :
    Unnoticed eraseRequests asked (.writeWord32 nvmcConfig mode.word) := fun _ => rfl

/-- `finish` reports success only for a closure that had it. -/
theorem finish_requests {closureResult : Except NvmcError Unit} (asked : List Word) :
    (Nvmc.finish closureResult).run.Only (Unnoticed eraseRequests asked)
      fun r => ∀ u, r = .ok u → closureResult = .ok u := by
  refine Prog.Only.bindExcept (attempt_only ⟨setMode_unnoticed asked _, fun restored => ?_⟩)
  refine Prog.Only.bindExcept (attempt_only ⟨fun _ => rfl, fun flushed => ?_⟩)
  cases closureResult with
  | error e => rintro _ ⟨⟩
  | ok _ => cases restored <;> cases flushed <;> exact fun _ _ => rfl

/-- `erase_storage` asks for the pages of its region and no others, and
returns only after it asked for all of them. -/
theorem eraseStorage_requests (hlt : start < stop) (hstart : start % pageSize = 0)
    (hstop : stop % pageSize = 0) {all : List Word}
    (hall : (storagePages start stop).map (BitVec.ofNat 32) = all) :
    Safe (monitor eraseRequests) (· <+: all) (eraseStorage start stop).run
      (fun r asked => r = .ok () → asked = all) [] := by
  have hvalid : ¬(start ≥ stop ∨ start % pageSize ≠ 0 ∨ stop % pageSize ≠ 0) := by omega
  rw [eraseStorage]
  simp only [hvalid, if_false]
  have hnone : ([] : List Word) <+: all := List.nil_prefix
  refine Prog.Only.bind_unnoticed (Issues.call (.command fun _ => rfl)) hnone
    (by rintro _ ⟨⟩) fun _ => ?_
  apply Safe.bindExcept
  apply call_safe
  refine Prog.Only.bind_unnoticed (Issues.call (.command (setMode_unnoticed _ _))) hnone
    (fun _ => ⟨hnone, by rintro ⟨⟩⟩) fun _ => ?_
  apply Safe.bindExcept
  apply attempt_safe
  have hpages : [] ++ (storagePages start stop).map (BitVec.ofNat 32) <+: all :=
    hall ▸ List.prefix_rfl
  refine (erasePages_requests hpages).result.mono (fun _ h => h) ?_
  rintro closureResult asked ⟨hasked, hclosure⟩
  have hfinish : Safe (monitor eraseRequests) (· <+: all) (Nvmc.finish closureResult).run _ asked :=
    (finish_requests asked).unnoticed hasked
  refine hfinish.mono (fun _ h => h) ?_
  rintro r t ⟨hr, ht⟩
  rw [ht]
  cases r with
  | error e => exact ⟨hasked, by rintro ⟨⟩⟩
  | ok _ =>
    have hfound : asked = all := (hclosure () (hr () rfl)).trans hall
    refine Prog.Only.bind_unnoticed (Issues.call (findMismatchIn_issues (fun _ _ _ => rfl) _ _))
      hasked (by rintro _ ⟨⟩) fun mismatch => ?_
    cases mismatch with
    | none => exact ⟨hasked, fun _ => hfound⟩
    | some mismatch => exact ⟨hasked, by rintro ⟨⟩⟩

/-! ### The memory -/

/-- A command that leaves the memory outside of a region alone. -/
def Outside (start stop : Nat) (c : ToolCmd) : Prop :=
  ∀ (b : Board) (a : c.Answer) (b' : Board), boardStep b c a b' →
    ∀ x, ¬(start ≤ x ∧ x < stop) → b'.memory x = b.memory x

theorem outside_of_eq {c : ToolCmd} (h : ∀ b a b', boardStep b c a b' → b' = b) :
    Outside start stop c := by
  intro b a b' hd x _
  rw [h b a b' hd]

theorem outside_write {address : Nat} {word : Word} (h : ∀ (b : Board) x, ¬(start ≤ x ∧ x < stop) →
    (b.writeWord32 address word).memory x = b.memory x) :
    Outside start stop (.writeWord32 address word) := by
  rintro b (e | _) b' hd x hx
  · rcases hd with rfl | rfl
    · rfl
    · exact h b x hx
  · rw [hd]
    exact h b x hx

theorem erasePage_outside {page : Nat} (hpage : page % pageSize = 0) (h32 : page < 2 ^ 32)
    (hstart : start ≤ page) (hstop : page + pageSize ≤ stop) :
    Outside start stop (.writeWord32 nvmcErasePage (BitVec.ofNat 32 page)) := by
  refine outside_write fun b x hx => ?_
  have hword : (BitVec.ofNat 32 page).toNat = page := by
    rw [BitVec.toNat_ofNat, Nat.mod_eq_of_lt h32]
  rw [Board.writeWord32, if_neg (by decide), if_neg (by decide), if_pos rfl, hword]
  split
  · refine Memory.erase_outside _ fun hin => hx ?_
    omega
  · rfl

/-- Whatever happens on the way, only the region is erased. -/
theorem eraseStorage_outside (hstart : start % pageSize = 0) (hstop : stop % pageSize = 0)
    (h32 : stop < 2 ^ 32) : Issues (Outside start stop) (eraseStorage start stop).run := by
  refine eraseStorage_issues ?_ ?_ ?_ ?_ ?_ ?_
  · intro mode
    exact outside_write fun b x _ => rfl
  · intro page hp
    obtain ⟨hle, hlt, hpage⟩ := (mem_storagePages hstart hstop).mp hp
    refine erasePage_outside hpage (hlt.trans h32) hle ?_
    unfold pageSize at *
    omega
  · exact outside_of_eq fun _ _ _ hd => hd
  · exact outside_of_eq fun _ _ _ hd => hd
  · exact outside_of_eq fun _ _ _ hd => hd
  · intro address len
    exact outside_of_eq fun _ _ _ hd => hd.1

theorem eraseStorage_memory (hstart : start % pageSize = 0) (hstop : stop % pageSize = 0)
    (h32 : stop < 2 ^ 32) {b b' : Board}
    {p : Prog ToolCmd ToolCmd.Answer (Except EraseStorageError Unit)}
    (h : Steps boardStep ((eraseStorage start stop).run, b) (p, b')) {x : Nat}
    (hx : ¬(start ≤ x ∧ x < stop)) : b'.memory x = b.memory x := by
  have hsafe := Safe.ofOnly (I := fun t : Board => t.memory x = b.memory x)
    (eraseStorage_outside hstart hstop h32) (fun s c a t hc hd hs => (hc s a t hd x hx).trans hs) rfl
  exact (hsafe.steps h).now

end Chip

namespace Elf

/-- A segment that is stored in the flash. -/
def ProgramHeader.FileBacked (h : ProgramHeader) : Prop := h.pType = ptLoad ∧ 0 < h.pFilesz

instance (h : ProgramHeader) : Decidable h.FileBacked := inferInstanceAs (Decidable (_ ∧ _))

def ProgramHeader.Occupies (h : ProgramHeader) (a : Nat) : Prop :=
  h.pPaddr ≤ a ∧ a < h.pPaddr + h.pFilesz

/-- The values of symbols in a 32-bit file. -/
def File.Elf32 (file : File) : Prop := ∀ symbol ∈ file.symbols, symbol.address < 2 ^ 32

/-- The erase of the counter takes the declared region and nothing of the
program, in every run on every board. -/
structure SparesProgram (file : File) (start stop : Nat) : Prop where
  requests : ∀ p asked,
    Steps (monitor Chip.eraseRequests) ((Chip.eraseStorage start stop).run, []) (p, asked) →
      asked <+: (Chip.storagePages start stop).map (BitVec.ofNat 32) ∧
      (p = .ret (.ok ()) → asked = (Chip.storagePages start stop).map (BitVec.ofNat 32))
  covers : ∀ a, (∃ page ∈ Chip.storagePages start stop, page ≤ a ∧ a < page + pageSize) ↔
    start ≤ a ∧ a < stop
  disjoint : ∀ page ∈ Chip.storagePages start stop, ∀ h ∈ file.programHeaders, h.FileBacked →
    ∀ a, h.Occupies a → ¬(page ≤ a ∧ a < page + pageSize)
  intact : ∀ (b : Board) p b', Steps boardStep ((Chip.eraseStorage start stop).run, b) (p, b') →
    ∀ h ∈ file.programHeaders, h.FileBacked → ∀ a, h.Occupies a → b'.memory a = b.memory a

/-- No stored segment reaches into the region. -/
def File.Apart (file : File) (start stop : Nat) : Prop :=
  ∀ h ∈ file.programHeaders, h.FileBacked → h.pPaddr + h.pFilesz ≤ start ∨ stop ≤ h.pPaddr

instance (file : File) (start stop : Nat) : Decidable (file.Apart start stop) :=
  inferInstanceAs (Decidable (∀ h ∈ file.programHeaders, _))

/-- The loop over the symbols finds addresses of symbols. -/
theorem mem_symbols_of_note {symbols : List Symbol} {a : Nat}
    (h : a ∈ (symbols.foldl note (none, none)).1 ∨ a ∈ (symbols.foldl note (none, none)).2) :
    ∃ symbol ∈ symbols, symbol.address = a := by
  induction symbols using List.reverseRecOn with
  | nil => simp at h
  | append_singleton symbols symbol ih =>
    rw [List.foldl_append, List.foldl_cons, List.foldl_nil] at h
    by_cases ha : symbol.address = a
    · exact ⟨symbol, by simp, ha⟩
    · have hrest : a ∈ (symbols.foldl note (none, none)).1 ∨
          a ∈ (symbols.foldl note (none, none)).2 := by
        rw [note] at h
        split at h
        · exact h
        · split at h
          · exact h.imp_left fun h => absurd (Option.some.inj h) ha
          · split at h
            · exact h.imp_right fun h => absurd (Option.some.inj h) ha
            · exact h
      obtain ⟨other, hmem, hother⟩ := ih hrest
      exact ⟨other, List.mem_append_left _ hmem, hother⟩

theorem storage_mem_symbols {file : File} {start stop : Nat}
    (h : storage file = .ok (some (start, stop))) : ∃ symbol ∈ file.symbols, symbol.address = stop := by
  rw [storage] at h
  split at h
  · cases h
  · rename_i start' stop' hfound
    split at h
    · cases h
    · split at h
      · cases h
      · cases h
        exact mem_symbols_of_note (.inr (by rw [hfound]; rfl))
  · cases h

section Spares

variable {file : File} {start stop : Nat}

theorem SparesProgram.apart (h : SparesProgram file start stop) (hlt : start < stop) :
    file.Apart start stop := by
  intro header hheader hbacked
  by_contra hover
  push Not at hover
  -- the first address of the overlap
  have hregion : start ≤ max start header.pPaddr ∧ max start header.pPaddr < stop :=
    ⟨le_max_left _ _, max_lt hlt hover.2⟩
  have hoccupies : header.Occupies (max start header.pPaddr) :=
    ⟨le_max_right _ _, max_lt hover.1 (Nat.lt_add_of_pos_right hbacked.2)⟩
  obtain ⟨page, hpage, hin⟩ := (h.covers _).mpr hregion
  exact h.disjoint page hpage header hheader hbacked _ hoccupies hin

theorem File.Apart.not_occupies (h : file.Apart start stop) {header : ProgramHeader}
    (hheader : header ∈ file.programHeaders) (hbacked : header.FileBacked) {a : Nat}
    (ha : header.Occupies a) : ¬(start ≤ a ∧ a < stop) := by
  have hapart := h header hheader hbacked
  have hin : header.pPaddr ≤ a ∧ a < header.pPaddr + header.pFilesz := ha
  omega

theorem File.Apart.spares (h : file.Apart start stop) (hlt : start < stop)
    (hstart : start % pageSize = 0) (hstop : stop % pageSize = 0) (h32 : stop < 2 ^ 32) :
    SparesProgram file start stop where
  requests := by
    intro p asked hrun
    have hsafe := (Chip.eraseStorage_requests hlt hstart hstop rfl).steps hrun
    refine ⟨hsafe.now, ?_⟩
    rintro rfl
    exact hsafe.2 rfl
  covers := Chip.storagePages_cover hstart hstop
  disjoint := by
    intro page hpage header hheader hbacked a ha hin
    exact h.not_occupies hheader hbacked ha
      ((Chip.storagePages_cover hstart hstop a).mp ⟨page, hpage, hin⟩)
  intact := by
    intro b p b' hrun header hheader hbacked a ha
    exact Chip.eraseStorage_memory hstart hstop h32 hrun (h.not_occupies hheader hbacked ha)

end Spares

/-- The region of an accepted image is erased without harm to the program iff
no stored segment reaches into it, which `read` does not check. -/
theorem sparesProgram_iff {parse : List Byte → Option File} {bytes : List Byte} {file : File}
    {image : Image} {start stop : Nat} (hparse : parse bytes = some file) (h32 : file.Elf32)
    (hread : read parse bytes = .ok image) (hs : image.storage = some (start, stop)) :
    SparesProgram file start stop ↔ file.Apart start stop := by
  obtain ⟨hlt, hstart, hstop⟩ := read_eq_ok hread hs
  have hstorage := read_storage hparse hread
  rw [hs] at hstorage
  obtain ⟨symbol, hsymbol, rfl⟩ := storage_mem_symbols hstorage
  exact ⟨fun h => h.apart hlt, fun h => h.spares hlt hstart hstop (h32 symbol hsymbol)⟩

/-! ### A minimal image -/

section Fixture

def ehdrLen : Nat := 52
def phdrLen : Nat := 32
def shdrLen : Nat := 40
def symLen : Nat := 16

def u32s (values : List Nat) : List Byte := values.flatMap (toLeBytes 4)

def shNames : List Byte :=
  "\x00.symtab\x00.strtab\x00.shstrtab\x00".toList.map fun c => BitVec.ofNat 8 c.toNat

/-- One segment of 64 bytes at `base`, and an absolute symbol for each name. -/
def symbolsFixture (base : Nat) (symbols : List (String × Nat)) (filler : Byte) : List Byte :=
  let names := symbols.map fun symbol =>
    symbol.1.toList.map (fun c => BitVec.ofNat 8 c.toNat) ++ [0]
  let nameOffsets := (names.map List.length).scanl (· + ·) 1
  let strtab := 0 :: names.flatten
  let payloadOff := ehdrLen + phdrLen
  let symtabOff := payloadOff + 64
  let symtabLen := (symbols.length + 1) * symLen
  let strtabOff := symtabOff + symtabLen
  let shstrtabOff := strtabOff + strtab.length
  let shoff := shstrtabOff + shNames.length
  let shdr := fun name kind off size link info entsize =>
    u32s [name, kind, 0, 0, off, size, link, info, 1, entsize]
  [0x7f, 0x45, 0x4c, 0x46, 1, 1, 1] ++ List.replicate 9 0 ++
    [2, 40].flatMap (toLeBytes 2) ++ u32s [1, base, ehdrLen, shoff, 0] ++
    [ehdrLen, phdrLen, 1, shdrLen, 4, 3].flatMap (toLeBytes 2) ++
    u32s [ptLoad, payloadOff, base, base, 64, 64, 5, 4] ++ List.replicate 64 filler ++
    List.replicate symLen 0 ++
    (nameOffsets.zip symbols).flatMap (fun entry =>
      u32s [entry.1, entry.2.2, 0] ++ [0x10, 0] ++ toLeBytes 2 shnAbs) ++
    strtab ++ shNames ++ shdr 0 0 0 0 0 0 0 ++ shdr 1 2 symtabOff symtabLen 2 1 symLen ++
    shdr 9 3 strtabOff strtab.length 0 0 0 ++ shdr 17 3 shstrtabOff shNames.length 0 0 0

/-- What the object-file reader finds in it. -/
def fixtureFile (base : Nat) (symbols : List (String × Nat)) : File where
  programHeaders := [⟨ptLoad, 64, base⟩]
  symbols := symbols.map fun symbol => ⟨shnAbs, some symbol.1, symbol.2⟩

def parseFixture (base : Nat) (symbols : List (String × Nat)) (filler : Byte) :
    List Byte → Option File :=
  fun bytes => if bytes = symbolsFixture base symbols filler then some (fixtureFile base symbols)
    else none

theorem parseFixture_self (base : Nat) (symbols : List (String × Nat)) (filler : Byte) :
    parseFixture base symbols filler (symbolsFixture base symbols filler) =
      some (fixtureFile base symbols) :=
  if_pos rfl

/-- The symbols of a region, as the linker script gives them. -/
def regionSymbols (start stop : Nat) : List (String × Nat) :=
  [(storageStart, start), (storageEnd, stop)]

theorem read_fixture {base start stop : Nat} (filler : Byte) (hlt : start < stop)
    (hstart : start % pageSize = 0) (hstop : stop % pageSize = 0) :
    read (parseFixture base (regionSymbols start stop) filler)
      (symbolsFixture base (regionSymbols start stop) filler) =
        .ok ⟨base, some (start, stop)⟩ := by
  have hnames : storageEnd ≠ storageStart := by decide
  have hvalid : ¬(start % pageSize ≠ 0 ∨ stop % pageSize ≠ 0) := by omega
  have hstorage : storage (fixtureFile base (regionSymbols start stop)) =
      .ok (some (start, stop)) := by
    simp [storage, fixtureFile, regionSymbols, note, hnames, Nat.not_le.mpr hlt, hvalid]
  rw [read, parseFixture_self]
  simp only [hstorage]
  rfl

theorem fixtureFile_elf32 {base start stop : Nat} (hlt : start < stop) (h32 : stop < 2 ^ 32) :
    (fixtureFile base (regionSymbols start stop)).Elf32 := by
  intro symbol hsymbol
  simp only [fixtureFile, regionSymbols, List.map_cons, List.map_nil, List.mem_cons,
    List.not_mem_nil, or_false] at hsymbol
  rcases hsymbol with rfl | rfl
  · exact hlt.trans h32
  · exact h32

end Fixture

theorem sparesProgram_fixture :
    SparesProgram (fixtureFile 0 (regionSymbols 0xFE000 0x100000)) 0xFE000 0x100000 :=
  (sparesProgram_iff (parseFixture_self 0 _ 0xAA)
    (fixtureFile_elf32 (by decide) (by decide)) (read_fixture 0xAA (by decide) rfl rfl) rfl).mpr
    (by decide)

/-- An accepted image whose region is the page it is loaded at. -/
theorem not_sparesProgram :
    ∃ parse bytes file image start stop, parse bytes = some file ∧ file.Elf32 ∧
      read parse bytes = .ok image ∧ image.storage = some (start, stop) ∧
      ¬SparesProgram file start stop := by
  refine ⟨_, _, _, _, 0, 0x1000, parseFixture_self 0 (regionSymbols 0 0x1000) 0xAA,
    fixtureFile_elf32 (by decide) (by decide), read_fixture 0xAA (by decide) rfl rfl, rfl, ?_⟩
  intro h
  exact absurd (h.apart (by decide)) (by decide)

end Elf

end Homescope
