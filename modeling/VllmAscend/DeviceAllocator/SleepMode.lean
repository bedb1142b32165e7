import VllmAscend.DeviceAllocator.Camem
import VllmAscend.Machinery.Run

/-!
# DeviceAllocator/SleepMode — when memory is mapped

    region          asleep         awake
    mapping         none           some h, h held, h in its cell

No one records whether a region is mapped.  As long as only regions that are awake are freed, and a tag
is woken up only when all its regions are asleep, the history says it (`Backed`): every call of the
driver succeeds, and the physical memory in use is what the cells of the regions name.  Any other free
or wake-up makes a call fail at once (`disciplined_iff`).
-/

namespace VllmAscend

open Machinery

/-- How often the physical memory was freed. -/
def freed (log : List (AclCall × Bool)) (h : ℕ) : ℕ := log.count (.freePhysical (some h), true)

/-- Every call succeeded, all physical memory in use is mapped at a region whose cell names it, and
what is not in use any more was freed once. -/
structure CaMemAllocator.Disciplined (s : CaMemAllocator) : Prop where
  calls_succeed : ∀ c ∈ s.device.log, c.2 = true
  held_mapped : ∀ h ∈ s.device.held, ∃ ptr data, s.pointerToData.lookup ptr = some data ∧
    s.device.mapping ptr = some h ∧ s.device.memHandle data.handle.pMemHandle = some h
  freed_once : ∀ h < s.device.created, freed s.device.log h = if h ∈ s.device.held then 0 else 1

/-- What the history says of a region. -/
structure Device.Region (dev : Device) (asleep : Finset ℕ) (ptr : ℕ) (handle : HandleType) : Prop where
  dMem_eq : handle.dMem = ptr
  reserved : ptr ∈ dev.reserved
  cell_mem : handle.pMemHandle ∈ dev.cells
  unmapped : ptr ∈ asleep → dev.mapping ptr = none
  mapped : ptr ∉ asleep → ∃ h ∈ dev.held, dev.mapping ptr = some h ∧
    dev.memHandle handle.pMemHandle = some h

/-- **The regions that are not asleep are backed**, and nothing else is mapped or held. -/
structure Backed (asleep : Finset ℕ) (regions : AList fun _ : ℕ => AllocationData) (dev : Device) :
    Prop where
  calls : ∀ c ∈ dev.log, c.2 = true
  region : ∀ ptr data, regions.lookup ptr = some data → dev.Region asleep ptr data.handle
  cell_inj : ∀ ptr ptr' data data', regions.lookup ptr = some data →
    regions.lookup ptr' = some data' → data.handle.pMemHandle = data'.handle.pMemHandle → ptr = ptr'
  mapping_mem : ∀ ptr h, dev.mapping ptr = some h → ptr ∈ dev.reserved ∧ h ∈ dev.held
  mapping_inj : ∀ ptr ptr' h, dev.mapping ptr = some h → dev.mapping ptr' = some h → ptr = ptr'
  held_mapped : ∀ h ∈ dev.held, ∃ ptr data, regions.lookup ptr = some data ∧
    dev.mapping ptr = some h ∧ dev.memHandle data.handle.pMemHandle = some h
  held_lt : ∀ h ∈ dev.held, h < dev.created
  freed_eq : ∀ h, freed dev.log h = if h < dev.created ∧ h ∉ dev.held then 1 else 0
  asleep_mem : ∀ ptr ∈ asleep, ptr ∈ regions

/-! ## The calls -/

namespace Device

variable {dev : Device} {handle : HandleType} {h : ℕ}

theorem createAndMap_eq (hreserved : handle.dMem ∈ dev.reserved)
    (hunmapped : dev.mapping handle.dMem = none) :
    dev.createAndMap handle = { dev with
      held := insert dev.created dev.held
      created := dev.created + 1
      memHandle := Function.update dev.memHandle handle.pMemHandle (some dev.created)
      mapping := Function.update dev.mapping handle.dMem (some dev.created)
      log := dev.log ++ [(.mallocPhysical dev.created, true), (.mapMem handle.dMem dev.created, true)] } := by
  simp [createAndMap, aclrtMallocPhysical, aclrtMapMem, call, hreserved, hunmapped]

/-- **Mapping over a mapping fails.** -/
theorem createAndMap_mapped (hmapped : dev.mapping handle.dMem = some h) :
    (.mapMem handle.dMem dev.created, false) ∈ (dev.createAndMap handle).log := by
  simp [createAndMap, aclrtMallocPhysical, aclrtMapMem, call, hmapped]

theorem mapping_createAndMap {ptr : ℕ} (hne : ptr ≠ handle.dMem) :
    (dev.createAndMap handle).mapping ptr = dev.mapping ptr := by
  by_cases hfree : handle.dMem ∈ dev.reserved ∧ dev.mapping handle.dMem = none
  · rw [createAndMap_eq hfree.1 hfree.2]
    exact Function.update_of_ne hne _ _
  · simp [createAndMap, aclrtMallocPhysical, aclrtMapMem, call, hfree]

theorem unmapAndRelease_eq (hmapped : dev.mapping handle.dMem = some h)
    (hcell : dev.memHandle handle.pMemHandle = some h) (hheld : h ∈ dev.held) :
    dev.unmapAndRelease handle = { dev with
      held := dev.held.erase h
      mapping := Function.update dev.mapping handle.dMem none
      log := dev.log ++ [(.unmapMem handle.dMem, true), (.freePhysical (some h), true)] } := by
  simp [unmapAndRelease, aclrtUnmapMem, aclrtFreePhysical, call, hmapped, hcell, hheld]

/-- **Unmapping what is not mapped fails.** -/
theorem unmapAndRelease_unmapped (hunmapped : dev.mapping handle.dMem = none) :
    (.unmapMem handle.dMem, false) ∈ (dev.unmapAndRelease handle).log := by
  simp [unmapAndRelease, aclrtUnmapMem, call, hunmapped]

theorem log_createAndMap {c : AclCall × Bool} (hc : c ∈ dev.log) :
    c ∈ (dev.createAndMap handle).log := by
  simp [createAndMap, aclrtMallocPhysical, aclrtMapMem, call, hc]

theorem log_memcpyHostToDevice (dev : Device) (ptr : ℕ) (backup : List UInt8) :
    (dev.memcpyHostToDevice ptr backup).log = dev.log := by
  unfold memcpyHostToDevice
  split <;> rfl

theorem mapping_memcpyHostToDevice (dev : Device) (ptr : ℕ) (backup : List UInt8) :
    (dev.memcpyHostToDevice ptr backup).mapping = dev.mapping := by
  unfold memcpyHostToDevice
  split <;> rfl

end Device

/-! ## What each part of an operation keeps -/

namespace Backed

variable {asleep : Finset ℕ} {regions : AList fun _ : ℕ => AllocationData} {dev : Device} {ptr : ℕ}
  {data : AllocationData}

theorem disciplined {s : CaMemAllocator} (hb : Backed asleep s.pointerToData s.device) :
    s.Disciplined where
  calls_succeed := hb.calls
  held_mapped := hb.held_mapped
  freed_once h hlt := by
    rw [hb.freed_eq]
    by_cases hheld : h ∈ s.device.held <;> simp [hheld, hlt]

/-- A new region, not mapped yet. -/
theorem register (hb : Backed asleep regions dev) {handle : HandleType} (tag : String)
    (hfresh : handle.dMem ∉ dev.reserved) (hcell : handle.pMemHandle ∉ dev.cells) :
    Backed (insert handle.dMem asleep) (regions.insert handle.dMem ⟨handle, tag, none⟩)
      { dev.aclrtReserveMemAddress handle.dMem with cells := insert handle.pMemHandle dev.cells } := by
  have hunmapped : dev.mapping handle.dMem = none := Option.eq_none_iff_forall_ne_some.mpr
    fun h hmap => hfresh (hb.mapping_mem _ h hmap).1
  -- the address is no region's
  have hnew : ∀ {ptr data}, regions.lookup ptr = some data → ptr ≠ handle.dMem := by
    rintro ptr data hlookup rfl
    exact hfresh (hb.region _ data hlookup).reserved
  have hlookup : ∀ ptr data,
      (regions.insert handle.dMem ⟨handle, tag, none⟩).lookup ptr = some data →
        (ptr = handle.dMem ∧ data = ⟨handle, tag, none⟩) ∨ regions.lookup ptr = some data := by
    intro ptr data hget
    by_cases hptr : ptr = handle.dMem
    · subst hptr
      rw [AList.lookup_insert] at hget
      exact .inl ⟨rfl, (Option.some.inj hget).symm⟩
    · rw [AList.lookup_insert_ne hptr] at hget
      exact .inr hget
  refine ⟨?_, ?_, ?_, ?_, hb.mapping_inj, ?_, hb.held_lt, ?_, ?_⟩
  · intro c hc
    obtain hc | hc := List.mem_append.mp hc
    · exact hb.calls c hc
    · rw [List.mem_singleton.mp hc]
  · intro ptr data hget
    obtain ⟨rfl, rfl⟩ | hold := hlookup ptr data hget
    · exact ⟨rfl, Finset.mem_insert_self _ _, Finset.mem_insert_self _ _, fun _ => hunmapped,
        fun hnot => absurd (Finset.mem_insert_self _ _) hnot⟩
    · obtain ⟨hdMem, hreserved, hmem, hun, hmap⟩ := hb.region ptr data hold
      exact ⟨hdMem, Finset.mem_insert_of_mem hreserved, Finset.mem_insert_of_mem hmem,
        fun hin => hun ((Finset.mem_insert.mp hin).resolve_left (hnew hold)),
        fun hnot => hmap fun hin => hnot (Finset.mem_insert_of_mem hin)⟩
  · intro ptr ptr' data data' hget hget' heq
    obtain ⟨rfl, rfl⟩ | hold := hlookup ptr data hget <;>
      obtain ⟨rfl, rfl⟩ | hold' := hlookup ptr' data' hget'
    · rfl
    · exact absurd (heq ▸ (hb.region _ _ hold').cell_mem) hcell
    · exact absurd (heq ▸ (hb.region _ _ hold).cell_mem) hcell
    · exact hb.cell_inj ptr ptr' data data' hold hold' heq
  · intro ptr h hmap
    obtain ⟨hreserved, hheld⟩ := hb.mapping_mem ptr h hmap
    exact ⟨Finset.mem_insert_of_mem hreserved, hheld⟩
  · intro h hheld
    obtain ⟨ptr, data, hget, hmap, hname⟩ := hb.held_mapped h hheld
    exact ⟨ptr, data, by rwa [AList.lookup_insert_ne (hnew hget)], hmap, hname⟩
  · intro h
    rw [freed, Device.aclrtReserveMemAddress, Device.call, List.count_append]
    simpa [freed] using hb.freed_eq h
  · intro ptr hin
    obtain rfl | hin := Finset.mem_insert.mp hin
    · exact (AList.mem_insert _).mpr (.inl rfl)
    · exact (AList.mem_insert _).mpr (.inr (hb.asleep_mem ptr hin))

/-- **A region that is asleep is mapped.** -/
theorem createAndMap (hb : Backed asleep regions dev) (hlookup : regions.lookup ptr = some data)
    (hasleep : ptr ∈ asleep) :
    Backed (asleep.erase ptr) regions (dev.createAndMap data.handle) := by
  obtain ⟨hdMem, hreserved, hcell, hun, -⟩ := hb.region ptr data hlookup
  subst hdMem
  rw [Device.createAndMap_eq hreserved (hun hasleep)]
  have hnew : dev.created ∉ dev.held := fun hin => (hb.held_lt _ hin).false
  -- the other regions keep their mapping and their cell
  have hother : ∀ ptr' data', regions.lookup ptr' = some data' → ptr' ≠ data.handle.dMem →
      data'.handle.pMemHandle ≠ data.handle.pMemHandle := fun ptr' data' hget hne heq =>
    hne (hb.cell_inj ptr' _ data' data hget hlookup heq)
  refine ⟨?_, ?_, hb.cell_inj, ?_, ?_, ?_, ?_, ?_, ?_⟩
  · intro c hc
    obtain hc | hc := List.mem_append.mp hc
    · exact hb.calls c hc
    · obtain rfl | rfl := by simpa using hc
      · rfl
      · rfl
  · intro ptr' data' hget
    obtain ⟨hdMem', hreserved', hcell', hun', hmap'⟩ := hb.region ptr' data' hget
    refine ⟨hdMem', hreserved', hcell', fun hin => ?_, fun hnot => ?_⟩
    · obtain ⟨hne, hin⟩ := Finset.mem_erase.mp hin
      exact (Function.update_of_ne hne _ _).trans (hun' hin)
    · by_cases hptr : ptr' = data.handle.dMem
      · subst hptr
        obtain rfl := Option.some.inj (hlookup.symm.trans hget)
        exact ⟨dev.created, Finset.mem_insert_self _ _, Function.update_self .., Function.update_self ..⟩
      · obtain ⟨h, hheld, hmap, hname⟩ := hmap' fun hin => hnot (Finset.mem_erase.mpr ⟨hptr, hin⟩)
        exact ⟨h, Finset.mem_insert_of_mem hheld, (Function.update_of_ne hptr _ _).trans hmap,
          (Function.update_of_ne (hother ptr' data' hget hptr) _ _).trans hname⟩
  · intro ptr' h hmap
    simp only [Function.update_apply] at hmap
    split at hmap
    · next hptr =>
      cases hmap
      exact ⟨hptr ▸ hreserved, Finset.mem_insert_self _ _⟩
    · obtain ⟨hres, hheld⟩ := hb.mapping_mem ptr' h hmap
      exact ⟨hres, Finset.mem_insert_of_mem hheld⟩
  · intro ptr₁ ptr₂ h hmap₁ hmap₂
    simp only [Function.update_apply] at hmap₁ hmap₂
    split at hmap₁ <;> split at hmap₂
    · next h₁ h₂ => exact h₁.trans h₂.symm
    · cases hmap₁
      exact absurd (hb.mapping_mem _ _ hmap₂).2 hnew
    · cases hmap₂
      exact absurd (hb.mapping_mem _ _ hmap₁).2 hnew
    · exact hb.mapping_inj ptr₁ ptr₂ h hmap₁ hmap₂
  · intro h hheld
    obtain rfl | hheld := Finset.mem_insert.mp hheld
    · exact ⟨_, data, hlookup, Function.update_self .., Function.update_self ..⟩
    · obtain ⟨ptr', data', hget, hmap, hname⟩ := hb.held_mapped h hheld
      have hne : ptr' ≠ data.handle.dMem := by
        rintro rfl
        rw [hun hasleep] at hmap
        cases hmap
      exact ⟨ptr', data', hget, (Function.update_of_ne hne _ _).trans hmap,
        (Function.update_of_ne (hother ptr' data' hget hne) _ _).trans hname⟩
  · intro h hheld
    obtain rfl | hheld := Finset.mem_insert.mp hheld
    · exact Nat.lt_succ_self _
    · exact (hb.held_lt h hheld).trans (Nat.lt_succ_self _)
  · intro h
    have hcount : freed (dev.log ++ [(.mallocPhysical dev.created, true),
        (.mapMem data.handle.dMem dev.created, true)]) h = freed dev.log h := by
      simp [freed, List.count_append]
    have hiff : (h < dev.created + 1 ∧ h ∉ insert dev.created dev.held) ↔
        (h < dev.created ∧ h ∉ dev.held) := by
      simp only [Finset.mem_insert, not_or, Nat.lt_succ_iff]
      exact ⟨fun ⟨hle, hne, hnot⟩ => ⟨lt_of_le_of_ne hle hne, hnot⟩,
        fun ⟨hlt, hnot⟩ => ⟨hlt.le, hlt.ne, hnot⟩⟩
    rw [hcount, hb.freed_eq]
    simp only [hiff]
  · exact fun ptr' hin => hb.asleep_mem ptr' (Finset.mem_erase.mp hin).2

/-- **A region that is awake is unmapped**, and its physical memory freed. -/
theorem unmapAndRelease (hb : Backed asleep regions dev) (hlookup : regions.lookup ptr = some data)
    (hawake : ptr ∉ asleep) :
    Backed (insert ptr asleep) regions (dev.unmapAndRelease data.handle) := by
  obtain ⟨hdMem, hreserved, hcell, -, hmapped⟩ := hb.region ptr data hlookup
  obtain ⟨h, hheld, hmap, hname⟩ := hmapped hawake
  subst hdMem
  rw [Device.unmapAndRelease_eq hmap hname hheld]
  -- a handle that is mapped elsewhere is another one
  have hother : ∀ ptr' h', dev.mapping ptr' = some h' → ptr' ≠ data.handle.dMem → h' ≠ h := by
    rintro ptr' h' hmap' hne rfl
    exact hne (hb.mapping_inj _ _ _ hmap' hmap)
  have hkeeps : ∀ ptr' h', Function.update dev.mapping data.handle.dMem none ptr' = some h' →
      ptr' ≠ data.handle.dMem ∧ dev.mapping ptr' = some h' := by
    intro ptr' h' hmap'
    have hne : ptr' ≠ data.handle.dMem := by
      rintro rfl
      rw [Function.update_self] at hmap'
      cases hmap'
    exact ⟨hne, by rwa [Function.update_of_ne hne] at hmap'⟩
  refine ⟨?_, ?_, hb.cell_inj, ?_, ?_, ?_, ?_, ?_, ?_⟩
  · intro c hc
    obtain hc | hc := List.mem_append.mp hc
    · exact hb.calls c hc
    · obtain rfl | rfl := by simpa using hc
      · rfl
      · rfl
  · intro ptr' data' hget
    obtain ⟨hdMem', hreserved', hcell', hun', hmap'⟩ := hb.region ptr' data' hget
    refine ⟨hdMem', hreserved', hcell', fun hin => ?_, fun hnot => ?_⟩
    · by_cases hptr : ptr' = data.handle.dMem
      · rw [hptr]
        exact Function.update_self ..
      · exact (Function.update_of_ne hptr _ _).trans
          (hun' ((Finset.mem_insert.mp hin).resolve_left hptr))
    · have hptr : ptr' ≠ data.handle.dMem := fun heq => hnot (heq ▸ Finset.mem_insert_self _ _)
      obtain ⟨h', hheld', hm, hn⟩ := hmap' fun hin => hnot (Finset.mem_insert_of_mem hin)
      exact ⟨h', Finset.mem_erase.mpr ⟨hother ptr' h' hm hptr, hheld'⟩,
        (Function.update_of_ne hptr _ _).trans hm, hn⟩
  · intro ptr' h' hmap'
    obtain ⟨hne, hm⟩ := hkeeps ptr' h' hmap'
    obtain ⟨hres, hheld'⟩ := hb.mapping_mem ptr' h' hm
    exact ⟨hres, Finset.mem_erase.mpr ⟨hother ptr' h' hm hne, hheld'⟩⟩
  · intro ptr₁ ptr₂ h' hmap₁ hmap₂
    exact hb.mapping_inj ptr₁ ptr₂ h' (hkeeps ptr₁ h' hmap₁).2 (hkeeps ptr₂ h' hmap₂).2
  · intro h' hheld'
    obtain ⟨hne, hheld'⟩ := Finset.mem_erase.mp hheld'
    obtain ⟨ptr', data', hget, hm, hn⟩ := hb.held_mapped h' hheld'
    have hptr : ptr' ≠ data.handle.dMem := by
      rintro rfl
      exact hne (Option.some.inj (hm.symm.trans hmap))
    exact ⟨ptr', data', hget, (Function.update_of_ne hptr _ _).trans hm, hn⟩
  · exact fun h' hheld' => hb.held_lt h' (Finset.mem_erase.mp hheld').2
  · intro h'
    have hcount : freed (dev.log ++ [(.unmapMem data.handle.dMem, true),
        (.freePhysical (some h), true)]) h' = freed dev.log h' + if h' = h then 1 else 0 := by
      by_cases heq : h' = h
      · subst heq
        simp [freed, List.count_append]
      · simp [freed, List.count_append, heq, Ne.symm heq]
    rw [hcount, hb.freed_eq]
    by_cases heq : h' = h
    · subst heq
      simp [hheld, hb.held_lt _ hheld]
    · simp [heq]
  · intro ptr' hin
    obtain rfl | hin := Finset.mem_insert.mp hin
    · exact AList.lookup_isSome.mp (by rw [hlookup]; rfl)
    · exact hb.asleep_mem ptr' hin

/-- A region that is asleep gives its address and its cell back. -/
theorem unregister (hb : Backed asleep regions dev) (hlookup : regions.lookup ptr = some data)
    (hasleep : ptr ∈ asleep) :
    (dev.aclrtReleaseMemAddress data.handle.dMem).2 = true ∧
      Backed (asleep.erase ptr) (regions.erase ptr)
        { (dev.aclrtReleaseMemAddress data.handle.dMem).1 with
          cells := dev.cells.erase data.handle.pMemHandle } := by
  obtain ⟨hdMem, hreserved, hcell, hun, -⟩ := hb.region ptr data hlookup
  subst hdMem
  have hunmapped := hun hasleep
  have hkeeps : ∀ ptr' data', (regions.erase data.handle.dMem).lookup ptr' = some data' →
      ptr' ≠ data.handle.dMem ∧ regions.lookup ptr' = some data' := by
    intro ptr' data' hget
    have hne : ptr' ≠ data.handle.dMem := by
      rintro rfl
      rw [AList.lookup_erase] at hget
      cases hget
    exact ⟨hne, by rwa [AList.lookup_erase_ne hne] at hget⟩
  have hok : decide (data.handle.dMem ∈ dev.reserved ∧ dev.mapping data.handle.dMem = none) = true :=
    decide_eq_true ⟨hreserved, hunmapped⟩
  refine ⟨hok, ?_⟩
  simp only [Device.aclrtReleaseMemAddress, hok, if_true, Device.call]
  refine ⟨?_, ?_, ?_, ?_, hb.mapping_inj, ?_, hb.held_lt, ?_, ?_⟩
  · intro c hc
    obtain hc | hc := List.mem_append.mp hc
    · exact hb.calls c hc
    · rw [List.mem_singleton.mp hc]
  · intro ptr' data' hget
    obtain ⟨hne, hold⟩ := hkeeps ptr' data' hget
    obtain ⟨hdMem', hreserved', hcell', hun', hmap'⟩ := hb.region ptr' data' hold
    have hcells : data'.handle.pMemHandle ≠ data.handle.pMemHandle := fun heq =>
      hne (hb.cell_inj ptr' _ data' data hold hlookup heq)
    exact ⟨hdMem', Finset.mem_erase.mpr ⟨hne, hreserved'⟩, Finset.mem_erase.mpr ⟨hcells, hcell'⟩,
      fun hin => hun' (Finset.mem_erase.mp hin).2,
      fun hnot => hmap' fun hin => hnot (Finset.mem_erase.mpr ⟨hne, hin⟩)⟩
  · intro ptr₁ ptr₂ data₁ data₂ hget₁ hget₂
    exact hb.cell_inj ptr₁ ptr₂ data₁ data₂ (hkeeps ptr₁ data₁ hget₁).2 (hkeeps ptr₂ data₂ hget₂).2
  · intro ptr' h hmap
    obtain ⟨hres, hheld⟩ := hb.mapping_mem ptr' h hmap
    refine ⟨Finset.mem_erase.mpr ⟨?_, hres⟩, hheld⟩
    rintro rfl
    rw [hunmapped] at hmap
    cases hmap
  · intro h hheld
    obtain ⟨ptr', data', hget, hmap, hname⟩ := hb.held_mapped h hheld
    have hne : ptr' ≠ data.handle.dMem := by
      rintro rfl
      rw [hunmapped] at hmap
      cases hmap
    exact ⟨ptr', data', by rwa [AList.lookup_erase_ne hne], hmap, hname⟩
  · intro h
    rw [freed, List.count_append]
    simpa [freed] using hb.freed_eq h
  · intro ptr' hin
    obtain ⟨hne, hin⟩ := Finset.mem_erase.mp hin
    exact AList.mem_erase.mpr ⟨hne, hb.asleep_mem ptr' hin⟩

/-- The backup of a region plays no role. -/
theorem replaceData (hb : Backed asleep regions dev) (hlookup : regions.lookup ptr = some data)
    {data' : AllocationData} (hhandle : data'.handle = data.handle) :
    Backed asleep (regions.insert ptr data') dev := by
  have hback : ∀ p d, (regions.insert ptr data').lookup p = some d →
      ∃ d', regions.lookup p = some d' ∧ d.handle = d'.handle := by
    intro p d hget
    by_cases hp : p = ptr
    · subst hp
      rw [AList.lookup_insert, Option.some.injEq] at hget
      subst hget
      exact ⟨data, hlookup, hhandle⟩
    · rw [AList.lookup_insert_ne hp] at hget
      exact ⟨d, hget, rfl⟩
  refine ⟨hb.calls, ?_, ?_, hb.mapping_mem, hb.mapping_inj, ?_, hb.held_lt, hb.freed_eq, ?_⟩
  · intro p d hget
    obtain ⟨d', hold, heq⟩ := hback p d hget
    exact heq ▸ hb.region p d' hold
  · intro p₁ p₂ d₁ d₂ hget₁ hget₂ hcell
    obtain ⟨d₁', hold₁, heq₁⟩ := hback p₁ d₁ hget₁
    obtain ⟨d₂', hold₂, heq₂⟩ := hback p₂ d₂ hget₂
    rw [heq₁, heq₂] at hcell
    exact hb.cell_inj p₁ p₂ d₁' d₂' hold₁ hold₂ hcell
  · intro h hheld
    obtain ⟨p, d, hget, hmap, hname⟩ := hb.held_mapped h hheld
    by_cases hp : p = ptr
    · subst hp
      obtain rfl := Option.some.inj (hlookup.symm.trans hget)
      exact ⟨p, data', AList.lookup_insert _, hmap, by rwa [hhandle]⟩
    · exact ⟨p, d, by rwa [AList.lookup_insert_ne hp], hmap, hname⟩
  · exact fun p hin => (AList.mem_insert _).mpr (.inr (hb.asleep_mem p hin))

/-- …and neither do the bytes. -/
theorem memcpyHostToDevice (hb : Backed asleep regions dev) (backup : List UInt8) :
    Backed asleep regions (dev.memcpyHostToDevice ptr backup) := by
  unfold Device.memcpyHostToDevice
  split
  · exact ⟨hb.calls, fun p d hget => ⟨(hb.region p d hget).1, (hb.region p d hget).2,
      (hb.region p d hget).3, (hb.region p d hget).4, (hb.region p d hget).5⟩, hb.cell_inj,
      hb.mapping_mem, hb.mapping_inj, hb.held_mapped, hb.held_lt, hb.freed_eq, hb.asleep_mem⟩
  · exact hb

end Backed

/-! ## The operations -/

namespace CaMemAllocator

variable {s : CaMemAllocator} {asleep : Finset ℕ} {ptr : ℕ} {data : AllocationData}

theorem backed_myMalloc (hb : Backed asleep s.pointerToData s.device) (granularity size device : ℕ)
    {dMem pMemHandle : ℕ} (hfresh : dMem ∉ s.device.reserved) (hcell : pMemHandle ∉ s.device.cells) :
    Backed asleep (s.myMalloc granularity size device dMem pMemHandle).pointerToData
      (s.myMalloc granularity size device dMem pMemHandle).device := by
  have hnew : dMem ∉ asleep := fun hin => by
    obtain ⟨data, hlookup⟩ := Option.isSome_iff_exists.mp
      (AList.lookup_isSome.mpr (hb.asleep_mem dMem hin))
    exact hfresh (hb.region _ data hlookup).reserved
  set handle : HandleType :=
    ⟨device, (size + granularity - 1) / granularity * granularity, dMem, pMemHandle⟩ with hhandle
  have hreg := hb.register s.currentTag (show handle.dMem ∉ s.device.reserved from hfresh) hcell
  have hmap := hreg.createAndMap (AList.lookup_insert _) (Finset.mem_insert_self _ _)
  rwa [Finset.erase_insert hnew] at hmap

theorem backed_myFree (hb : Backed asleep s.pointerToData s.device) (hin : ptr ∈ s.pointerToData)
    (hawake : ptr ∉ asleep) :
    Backed (asleep.erase ptr) (s.myFree ptr).pointerToData (s.myFree ptr).device := by
  obtain ⟨data, hlookup⟩ := Option.isSome_iff_exists.mp (AList.lookup_isSome.mpr hin)
  have hun := hb.unmapAndRelease hlookup hawake
  obtain ⟨hok, hreg⟩ := hun.unregister hlookup (Finset.mem_insert_self _ _)
  rw [Finset.erase_insert_eq_erase] at hreg
  simp only [myFree, pythonFreeCallback, hlookup, Option.bind_eq_bind, Option.bind_some,
    Option.pure_def, hok, if_true]
  exact hreg

/-- **Freeing a region that is asleep unmaps what is not mapped.** -/
theorem myFree_asleep (hb : Backed asleep s.pointerToData s.device) (hasleep : ptr ∈ asleep) :
    ¬ (s.myFree ptr).Disciplined := by
  obtain ⟨data, hlookup⟩ := Option.isSome_iff_exists.mp
    (AList.lookup_isSome.mpr (hb.asleep_mem ptr hasleep))
  obtain ⟨hdMem, -, -, hun, -⟩ := hb.region ptr data hlookup
  have hunmapped : s.device.mapping data.handle.dMem = none := by
    rw [hdMem]
    exact hun hasleep
  have hlog := Device.unmapAndRelease_unmapped hunmapped
  intro hdisciplined
  have hcall := hdisciplined.calls_succeed (.unmapMem data.handle.dMem, false) (by
    simp only [myFree, pythonFreeCallback, hlookup, Option.bind_eq_bind, Option.bind_some,
      Option.pure_def]
    split <;> exact List.mem_append_left _ hlog)
  cases hcall

/-! ## Sleep -/

theorem mem_sleepRegion (offloadTags : List String) (p : ℕ) :
    p ∈ (s.sleepRegion offloadTags ptr).pointerToData ↔ p ∈ s.pointerToData := by
  rw [sleepRegion]
  split
  · exact Iff.rfl
  · next data hlookup =>
    rw [AList.mem_insert]
    refine ⟨?_, .inr⟩
    rintro (rfl | hp)
    · exact AList.lookup_isSome.mp (by rw [hlookup]; rfl)
    · exact hp

theorem backed_sleepRegion (hb : Backed asleep s.pointerToData s.device) (offloadTags : List String)
    (hin : ptr ∈ s.pointerToData) (hawake : ptr ∉ asleep) :
    Backed (insert ptr asleep) (s.sleepRegion offloadTags ptr).pointerToData
      (s.sleepRegion offloadTags ptr).device := by
  obtain ⟨data, hlookup⟩ := Option.isSome_iff_exists.mp (AList.lookup_isSome.mpr hin)
  have hun := hb.unmapAndRelease hlookup hawake
  simp only [sleepRegion, hlookup]
  refine hun.replaceData hlookup ?_
  split <;> rfl

/-- The loop of `sleep`, on regions that are awake. -/
theorem sleep_loop_induction (offloadTags : List String) {P : Finset ℕ → CaMemAllocator → Prop}
    (hround : ∀ {s asleep ptr}, P asleep s → ptr ∈ s.pointerToData → ptr ∉ asleep →
      P (insert ptr asleep) (s.sleepRegion offloadTags ptr)) :
    ∀ {ptrs : List ℕ} {s : CaMemAllocator} {asleep : Finset ℕ}, ptrs.Nodup →
      (∀ p ∈ ptrs, p ∈ s.pointerToData ∧ p ∉ asleep) → P asleep s →
        P (asleep ∪ ptrs.toFinset) (ptrs.foldl (fun s ptr => s.sleepRegion offloadTags ptr) s)
  | [], s, asleep, _, _, hP => by simpa using hP
  | ptr :: ptrs, s, asleep, hnodup, hall, hP => by
    obtain ⟨hnotMem, hrest⟩ := List.nodup_cons.mp hnodup
    obtain ⟨hin, hawake⟩ := hall ptr (.head _)
    have htail := sleep_loop_induction offloadTags hround hrest (fun p hp => by
      refine ⟨(mem_sleepRegion offloadTags p).mpr (hall p (.tail _ hp)).1, fun hmem => ?_⟩
      obtain rfl | hmem := Finset.mem_insert.mp hmem
      · exact hnotMem hp
      · exact (hall p (.tail _ hp)).2 hmem) (hround hP hin hawake)
    rw [List.toFinset_cons, Finset.union_insert, ← Finset.insert_union]
    exact htail

/-- **What every round keeps, `sleep` keeps**; the regions fall asleep one after the other. -/
theorem sleep_induction (offloadTags : Option (List String)) {P : Finset ℕ → CaMemAllocator → Prop}
    (hround : ∀ {s asleep ptr}, P asleep s → ptr ∈ s.pointerToData → ptr ∉ asleep →
      P (insert ptr asleep) (s.sleepRegion (offloadTags.getD [defaultTag]) ptr)) (hP : P ∅ s) :
    P s.pointerToData.keys.toFinset (s.sleep offloadTags) := by
  have hloop := sleep_loop_induction _ hround s.pointerToData.keys_nodup
    (fun p hp => ⟨hp, Finset.notMem_empty p⟩) hP
  rwa [Finset.empty_union] at hloop

theorem backed_sleep (hb : Backed ∅ s.pointerToData s.device) (offloadTags : Option (List String)) :
    Backed s.pointerToData.keys.toFinset (s.sleep offloadTags).pointerToData
      (s.sleep offloadTags).device :=
  sleep_induction (P := fun asleep s => Backed asleep s.pointerToData s.device) offloadTags
    (fun hb hin hawake => backed_sleepRegion hb _ hin hawake) hb

/-! ## Wake-up -/

/-- A round of the loop leaves the tags alone. -/
theorem isWoken_wakeRegion (tags tags' : Option (List String)) (p : ℕ) :
    (s.wakeRegion tags ptr).IsWoken tags' p ↔ s.IsWoken tags' p := by
  rw [wakeRegion]
  split
  · exact Iff.rfl
  · next data hlookup =>
    split
    · split
      · exact Iff.rfl
      · by_cases hp : p = ptr
        · subst hp
          simp [IsWoken, hlookup]
        · simp [IsWoken, AList.lookup_insert_ne hp]
    · exact Iff.rfl

theorem backed_wakeRegion (hb : Backed asleep s.pointerToData s.device) {tags : Option (List String)}
    (hwoken : s.IsWoken tags ptr) (hasleep : ptr ∈ asleep) :
    Backed (asleep.erase ptr) (s.wakeRegion tags ptr).pointerToData (s.wakeRegion tags ptr).device := by
  obtain ⟨data, hlookup, hwakes⟩ := hwoken
  have hmap := hb.createAndMap hlookup hasleep
  simp only [wakeRegion, hlookup, hwakes, if_true]
  split
  · exact hmap
  · exact (hmap.replaceData hlookup (by rfl)).memcpyHostToDevice _

theorem wakeRegion_of_not_isWoken {tags : Option (List String)} (h : ¬ s.IsWoken tags ptr) :
    s.wakeRegion tags ptr = s := by
  rw [wakeRegion]
  split
  · rfl
  · next data hlookup =>
    split
    · next hwakes => exact absurd ⟨data, hlookup, hwakes⟩ h
    · rfl

/-- The loop of `wake_up`, when the regions to be woken up are asleep. -/
theorem wakeUp_loop_induction (tags : Option (List String)) {P : Finset ℕ → CaMemAllocator → Prop}
    (hround : ∀ {s asleep ptr}, P asleep s → s.IsWoken tags ptr → ptr ∈ asleep →
      P (asleep.erase ptr) (s.wakeRegion tags ptr)) :
    ∀ {ptrs : List ℕ} {s : CaMemAllocator} {asleep : Finset ℕ}, ptrs.Nodup →
      (∀ p ∈ ptrs, s.IsWoken tags p → p ∈ asleep) → P asleep s →
        P (asleep.filter fun p => ¬ (p ∈ ptrs ∧ s.IsWoken tags p))
          (ptrs.foldl (fun s ptr => s.wakeRegion tags ptr) s)
  | [], s, asleep, _, _, hP => by simpa using hP
  | ptr :: ptrs, s, asleep, hnodup, hall, hP => by
    obtain ⟨hnotMem, hrest⟩ := List.nodup_cons.mp hnodup
    by_cases hwoken : s.IsWoken tags ptr
    · have htail := wakeUp_loop_induction tags hround hrest (fun p hp hw => by
        refine Finset.mem_erase.mpr ⟨?_, hall p (.tail _ hp) ((isWoken_wakeRegion tags tags p).mp hw)⟩
        rintro rfl
        exact hnotMem hp) (hround hP hwoken (hall ptr (.head _) hwoken))
      have hset : (asleep.filter fun p => ¬ (p ∈ ptr :: ptrs ∧ s.IsWoken tags p)) =
          (asleep.erase ptr).filter fun p =>
            ¬ (p ∈ ptrs ∧ (s.wakeRegion tags ptr).IsWoken tags p) := by
        ext p
        simp only [Finset.mem_filter, Finset.mem_erase, isWoken_wakeRegion, List.mem_cons]
        by_cases hp : p = ptr
        · simp [hp, hwoken]
        · simp [hp]
      rw [List.foldl_cons, hset]
      exact htail
    · have htail := wakeUp_loop_induction tags hround hrest (fun p hp => hall p (.tail _ hp)) hP
      have hset : (asleep.filter fun p => ¬ (p ∈ ptr :: ptrs ∧ s.IsWoken tags p)) =
          asleep.filter fun p => ¬ (p ∈ ptrs ∧ s.IsWoken tags p) := by
        ext p
        simp only [Finset.mem_filter, List.mem_cons]
        by_cases hp : p = ptr
        · simp [hp, hwoken]
        · simp [hp]
      rw [List.foldl_cons, wakeRegion_of_not_isWoken hwoken, hset]
      exact htail

theorem IsWoken.mem {tags : Option (List String)} (h : s.IsWoken tags ptr) : ptr ∈ s.pointerToData := by
  obtain ⟨data, hlookup, -⟩ := h
  exact AList.lookup_isSome.mp (by rw [hlookup]; rfl)

/-- **What every round keeps, `wake_up` keeps**; the regions that are woken up leave those asleep. -/
theorem wakeUp_induction (tags : Option (List String)) {P : Finset ℕ → CaMemAllocator → Prop}
    (hround : ∀ {s asleep ptr}, P asleep s → s.IsWoken tags ptr → ptr ∈ asleep →
      P (asleep.erase ptr) (s.wakeRegion tags ptr))
    (hall : ∀ p, s.IsWoken tags p → p ∈ asleep) (hP : P asleep s) :
    P (asleep.filter fun p => ¬ s.IsWoken tags p) (s.wakeUp tags) := by
  have hset : (asleep.filter fun p => ¬ s.IsWoken tags p) =
      asleep.filter fun p => ¬ (p ∈ s.pointerToData.keys ∧ s.IsWoken tags p) :=
    Finset.filter_congr fun p _ => not_congr ⟨fun hwoken => ⟨hwoken.mem, hwoken⟩, And.right⟩
  rw [hset]
  exact wakeUp_loop_induction tags hround s.pointerToData.keys_nodup (fun p _ => hall p) hP

theorem backed_wakeUp (hb : Backed asleep s.pointerToData s.device) {tags : Option (List String)}
    (hall : ∀ p, s.IsWoken tags p → p ∈ asleep) :
    Backed (asleep.filter fun p => ¬ s.IsWoken tags p) (s.wakeUp tags).pointerToData
      (s.wakeUp tags).device :=
  wakeUp_induction (P := fun asleep s => Backed asleep s.pointerToData s.device) tags
    (fun hb hwoken hasleep => backed_wakeRegion hb hwoken hasleep) hall hb

theorem log_wakeRegion (tags : Option (List String)) {c : AclCall × Bool} (hc : c ∈ s.device.log) :
    c ∈ (s.wakeRegion tags ptr).device.log := by
  rw [wakeRegion]
  split
  · exact hc
  · split
    · split
      · exact Device.log_createAndMap hc
      · rw [Device.log_memcpyHostToDevice]
        exact Device.log_createAndMap hc
    · exact hc

theorem log_wakeUp_loop (tags : Option (List String)) {c : AclCall × Bool} : ∀ {ptrs : List ℕ}
    {s : CaMemAllocator}, c ∈ s.device.log →
      c ∈ (ptrs.foldl (fun s ptr => s.wakeRegion tags ptr) s).device.log
  | [], _, hc => hc
  | ptr :: _, s, hc => log_wakeUp_loop (s := s.wakeRegion tags ptr) tags (log_wakeRegion tags hc)

/-- The regions stand at their own addresses. -/
def Keyed (s : CaMemAllocator) : Prop :=
  ∀ p d, s.pointerToData.lookup p = some d → d.handle.dMem = p

theorem keyed_wakeRegion (hkeyed : s.Keyed) (tags : Option (List String)) :
    (s.wakeRegion tags ptr).Keyed := by
  intro p d
  rw [wakeRegion]
  split
  · exact hkeyed p d
  · next data hlookup =>
    split
    · split
      · exact hkeyed p d
      · intro hget
        by_cases hp : p = ptr
        · subst hp
          rw [AList.lookup_insert, Option.some.injEq] at hget
          subst hget
          exact hkeyed p data hlookup
        · rw [AList.lookup_insert_ne hp] at hget
          exact hkeyed p d hget
    · exact hkeyed p d

theorem mapping_wakeRegion (hkeyed : s.Keyed) (tags : Option (List String)) {p : ℕ} (hne : p ≠ ptr) :
    (s.wakeRegion tags ptr).device.mapping p = s.device.mapping p := by
  rw [wakeRegion]
  split
  · rfl
  · next data hlookup =>
    have hother : p ≠ data.handle.dMem := by rwa [hkeyed ptr data hlookup]
    split
    · split
      · exact Device.mapping_createAndMap hother
      · rw [Device.mapping_memcpyHostToDevice]
        exact Device.mapping_createAndMap hother
    · rfl

/-- **The loop fails at a region that is mapped when its turn comes.** -/
theorem wakeUp_loop_mapped (tags : Option (List String)) {p h : ℕ} : ∀ {ptrs : List ℕ}
    {s : CaMemAllocator}, p ∈ ptrs → s.Keyed → s.IsWoken tags p → s.device.mapping p = some h →
      ∃ c ∈ (ptrs.foldl (fun s ptr => s.wakeRegion tags ptr) s).device.log, c.2 = false
  | ptr :: ptrs, s, hmem, hkeyed, hwoken, hmapped => by
    by_cases hp : p = ptr
    · subst hp
      obtain ⟨data, hlookup, hwakes⟩ := hwoken
      have hfail := Device.createAndMap_mapped
        (by rw [hkeyed p data hlookup]; exact hmapped)
      refine ⟨(.mapMem data.handle.dMem s.device.created, false),
        log_wakeUp_loop (s := s.wakeRegion tags p) tags ?_, rfl⟩
      simp only [wakeRegion, hlookup, hwakes, if_true]
      split
      · exact hfail
      · rw [Device.log_memcpyHostToDevice]
        exact hfail
    · exact wakeUp_loop_mapped (s := s.wakeRegion tags ptr) tags
        ((List.mem_cons.mp hmem).resolve_left hp) (keyed_wakeRegion hkeyed tags)
        ((isWoken_wakeRegion tags tags p).mpr hwoken)
        ((mapping_wakeRegion hkeyed tags hp).trans hmapped)

/-- **Waking up a region that is awake maps over its mapping.** -/
theorem wakeUp_awake (hb : Backed asleep s.pointerToData s.device) {tags : Option (List String)}
    (hwoken : s.IsWoken tags ptr) (hawake : ptr ∉ asleep) : ¬ (s.wakeUp tags).Disciplined := by
  have hmem := hwoken.mem
  obtain ⟨data, hlookup, -⟩ := id hwoken
  obtain ⟨h, -, hmap, -⟩ := (hb.region ptr data hlookup).mapped hawake
  obtain ⟨c, hc, hfailed⟩ := wakeUp_loop_mapped tags hmem
    (fun p d hget => (hb.region p d hget).dMem_eq) hwoken hmap
  intro hdisciplined
  rw [hdisciplined.calls_succeed c hc] at hfailed
  cases hfailed

end CaMemAllocator

/-! ## Runs -/

namespace SleepSystem

/-- The region that is freed is awake, and the regions that are woken up are all asleep. -/
def Safe (s : SleepSystem) : MemoryEvent → Prop
  | .malloc .. => True
  | .free ptr => ptr ∉ s.asleep
  | .sleep _ => True
  | .wakeUp tags => ∀ ptr, s.allocator.IsWoken tags ptr → ptr ∈ s.asleep

/-- The history says what is mapped. -/
def Known (s : SleepSystem) : Prop :=
  Backed s.asleep s.allocator.pointerToData s.allocator.device

variable {granularity : ℕ} {s t : SleepSystem} {e : MemoryEvent}

theorem init_known (bytes : ℕ → List UInt8) : (init bytes).Known where
  calls := by simp [init]
  region ptr data h := by simp [init] at h
  cell_inj ptr ptr' data data' h := by simp [init] at h
  mapping_mem ptr h hmap := by cases hmap
  mapping_inj ptr ptr' h hmap := by cases hmap
  held_mapped h hheld := by simp [init] at hheld
  held_lt h hheld := by simp [init] at hheld
  freed_eq h := by simp [init, freed]
  asleep_mem ptr hin := by simp [init] at hin

/-- **A safe step keeps the history right.** -/
theorem Known.after (hs : s.Known) (hallowed : s.Allowed e) (hsafe : s.Safe e)
    (h : s.step granularity e = .ok t) : t.Known := by
  cases e with
  | malloc tag size device dMem pMemHandle =>
    cases h
    exact CaMemAllocator.backed_myMalloc (s := { s.allocator with currentTag := tag }) hs _ _ _
      hallowed.1 hallowed.2
  | free ptr =>
    cases h
    exact CaMemAllocator.backed_myFree hs hallowed hsafe
  | sleep offloadTags =>
    cases h
    have hempty : s.asleep = ∅ := hallowed
    rw [Known, hempty] at hs
    exact CaMemAllocator.backed_sleep hs offloadTags
  | wakeUp tags =>
    cases h
    exact CaMemAllocator.backed_wakeUp hs hsafe

/-- **Any other step makes a call fail.** -/
theorem Known.after_unsound (hs : s.Known) (hnot : ¬ s.Safe e)
    (h : s.step granularity e = .ok t) : ¬ t.allocator.Disciplined := by
  cases e with
  | malloc tag size device dMem pMemHandle => exact absurd trivial hnot
  | free ptr =>
    cases h
    exact CaMemAllocator.myFree_asleep hs (not_not.mp hnot)
  | sleep offloadTags => exact absurd trivial hnot
  | wakeUp tags =>
    cases h
    obtain ⟨ptr, hptr⟩ := not_forall.mp hnot
    obtain ⟨hwoken, hawake⟩ := Classical.not_imp.mp hptr
    exact CaMemAllocator.wakeUp_awake hs hwoken hawake

theorem exists_step (granularity : ℕ) (s : SleepSystem) (e : MemoryEvent) :
    ∃ t, s.step granularity e = .ok t := by
  cases e <;> exact ⟨_, rfl⟩

/-- From a state whose history is right. -/
theorem Known.disciplinedRun_iff : ∀ {es : List MemoryEvent} {s : SleepSystem}, s.Known →
    AllowedAlong (step granularity) Allowed s es →
      ((∀ es' : List MemoryEvent, es' <+: es →
        Returns (feed (step granularity) s es') fun t => t.allocator.Disciplined) ↔
        AllowedAlong (step granularity) Safe s es)
  | [], s, hs, _ => by
    refine iff_of_true (fun es' hes' => ?_) trivial
    obtain rfl := List.prefix_nil.mp hes'
    exact ⟨s, rfl, Backed.disciplined hs⟩
  | e :: es, s, hs, hallowed => by
    obtain ⟨t, ht⟩ := exists_step granularity s e
    have hfeed : ∀ es', feed (SleepSystem.step granularity) s (e :: es') =
        feed (SleepSystem.step granularity) t es' := fun es' => by rw [feed, ht]
    constructor
    · intro hall
      have hsafe : s.Safe e := by
        by_contra hnot
        have hnext := hall [e] (List.prefix_cons_inj e |>.mpr List.nil_prefix)
        rw [hfeed] at hnext
        exact hs.after_unsound hnot ht (hnext.of_eq_ok rfl)
      refine ⟨hsafe, fun t' ht' => ?_⟩
      obtain rfl := Except.ok.inj (ht.symm.trans ht')
      refine (Known.disciplinedRun_iff (hs.after hallowed.1 hsafe ht) (hallowed.2 t ht)).mp
        fun es' hes' => ?_
      rw [← hfeed]
      exact hall (e :: es') ((List.prefix_cons_inj e).mpr hes')
    · rintro ⟨hsafe, htail⟩ es' hes'
      obtain rfl | ⟨es'', rfl, hes''⟩ := List.prefix_cons_iff.mp hes'
      · exact ⟨s, rfl, Backed.disciplined hs⟩
      · rw [hfeed]
        exact (Known.disciplinedRun_iff (hs.after hallowed.1 hsafe ht) (hallowed.2 t ht)).mpr
          (htail t ht) es'' hes''

/-- **The mapping discipline holds along a run exactly when no region is freed while it is asleep and no
region is woken up while it is awake.** -/
theorem disciplined_iff (granularity : ℕ) (bytes : ℕ → List UInt8) {es : List MemoryEvent}
    (hallowed : AllowedAlong (step granularity) Allowed (init bytes) es) :
    (∀ es' : List MemoryEvent, es' <+: es →
      Returns (feed (step granularity) (init bytes) es') fun t => t.allocator.Disciplined) ↔
      AllowedAlong (step granularity) Safe (init bytes) es :=
  Known.disciplinedRun_iff (init_known bytes) hallowed

instance (s : SleepSystem) (e : MemoryEvent) : Decidable (s.Safe e) :=
  match e with
  | .malloc .. => isTrue trivial
  | .free ptr => inferInstanceAs (Decidable (ptr ∉ s.asleep))
  | .sleep _ => isTrue trivial
  | .wakeUp tags =>
    decidable_of_iff
      (∀ ptr ∈ s.allocator.pointerToData.keys, s.allocator.IsWoken tags ptr → ptr ∈ s.asleep)
      ⟨fun h ptr hwoken => h ptr hwoken.mem hwoken, fun h ptr _ => h ptr⟩

/-- A region is put to sleep, woken up and freed. -/
def sleepAndWake : List MemoryEvent :=
  [.malloc "weights" 3 0 8 1, .sleep none, .wakeUp (some ["weights"]), .free 8]

theorem sleepAndWake_disciplined : sleepAndWake.length = 4 ∧
    ∀ es' : List MemoryEvent, es' <+: sleepAndWake →
      Returns (feed (step 2) (init fun _ => []) es') fun t => t.allocator.Disciplined := by
  refine ⟨rfl, (disciplined_iff 2 (fun _ => []) ?_).mpr (by decide +kernel)⟩
  refine ⟨⟨by decide, by decide⟩, fun s hs => ?_⟩
  cases hs
  refine ⟨rfl, fun s hs => ?_⟩
  cases hs
  refine ⟨fun _ _ => rfl, fun s hs => ?_⟩
  cases hs
  refine ⟨?_, fun _ _ => trivial⟩
  rw [Allowed]
  decide +kernel

/-- **A tensor freed while its region is asleep.** -/
theorem free_while_asleep :
    AllowedAlong (step 2) Allowed (init fun _ => [])
        [.malloc "weights" 3 0 8 1, .sleep none, .free 8] ∧
      ¬ Returns (feed (step 2) (init fun _ => []) [.malloc "weights" 3 0 8 1, .sleep none, .free 8])
        fun t => t.allocator.Disciplined := by
  constructor
  · refine ⟨⟨by decide, by decide⟩, fun s hs => ?_⟩
    cases hs
    refine ⟨rfl, fun s hs => ?_⟩
    cases hs
    refine ⟨?_, fun _ _ => trivial⟩
    rw [Allowed]
    decide +kernel
  · rintro ⟨t, ht, hdisciplined⟩
    cases ht
    have hfailed := hdisciplined.calls_succeed (.unmapMem 8, false) (by decide +kernel)
    cases hfailed

/-- A region allocated under a tag that is asleep, and the tag woken up. -/
example : ¬ AllowedAlong (step 2) Safe (init fun _ => [])
    [.malloc "weights" 3 0 8 1, .sleep none, .malloc "weights" 3 0 12 2,
      .wakeUp (some ["weights"])] := by
  decide +kernel

end SleepSystem

end VllmAscend
