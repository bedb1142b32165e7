import VllmAscend.DeviceAllocator.SleepMode

/-!
# DeviceAllocator/RoundTrip — to sleep and back

    tag             offloaded           not offloaded
    sleep           bytes ──▸ backup    bytes dropped
    wake_up         backup ──▸ bytes    memory as the device gives it

A backup exists for a region that is asleep and was offloaded, and for no other: `sleep` is allowed only
when everything is awake, and each wake-up of a region takes its backup with it (`Reached.backup_asleep`).
So a cycle of `sleep` and wake-ups that take every region once gives each region the bytes of this very
`sleep` or none at all (`sleep_wakeUp_roundTrip`).
-/

namespace VllmAscend

open Machinery

namespace CaMemAllocator

variable {s t u : CaMemAllocator} {asleep : Finset ℕ} {ptr : ℕ} {data : AllocationData}

/-- The usage depends on what the regions are, not on the order they are recorded in. -/
theorem getCurrentUsage_congr (h : ∀ ptr, t.pointerToData.lookup ptr = s.pointerToData.lookup ptr) :
    t.getCurrentUsage = s.getCurrentUsage := by
  have hperm : t.pointerToData.entries.Perm s.pointerToData.entries :=
    List.lookup_ext t.pointerToData.nodupKeys s.pointerToData.nodupKeys fun ptr data => by
      rw [show t.pointerToData.entries.dlookup ptr = s.pointerToData.entries.dlookup ptr from h ptr]
  exact (hperm.map _).sum_eq

/-- A tensor in the region is written. -/
def write (s : CaMemAllocator) (ptr : ℕ) (bytes : List UInt8) : CaMemAllocator :=
  { s with device := s.device.memcpyHostToDevice ptr bytes }

/-! ## Falling asleep -/

/-- The record of a region once it is asleep. -/
def offloaded (s : CaMemAllocator) (offloadTags : List String) (ptr : ℕ) (data : AllocationData) :
    AllocationData :=
  if data.tag ∈ offloadTags then
    { data with cpuBackupTensor := some (s.device.memcpyDeviceToHost ptr) }
  else data

/-- What `sleep` has done when the regions `asleep` have had their turn. -/
structure FallingAsleep (s : CaMemAllocator) (offloadTags : List String) (asleep : Finset ℕ)
    (t : CaMemAllocator) : Prop where
  backed : Backed asleep t.pointerToData t.device
  lookup_asleep : ∀ ptr ∈ asleep,
    t.pointerToData.lookup ptr = (s.pointerToData.lookup ptr).map (s.offloaded offloadTags ptr)
  lookup_awake : ∀ ptr ∉ asleep, t.pointerToData.lookup ptr = s.pointerToData.lookup ptr
  mapping_awake : ∀ ptr ∉ asleep, t.device.mapping ptr = s.device.mapping ptr
  bytes_eq : t.device.bytes = s.device.bytes
  created_eq : t.device.created = s.device.created

theorem FallingAsleep.sleepRegion {offloadTags : List String}
    (h : FallingAsleep s offloadTags asleep t) (hin : ptr ∈ t.pointerToData) (hawake : ptr ∉ asleep) :
    FallingAsleep s offloadTags (insert ptr asleep) (t.sleepRegion offloadTags ptr) := by
  obtain ⟨data, hlookup⟩ := Option.isSome_iff_exists.mp (AList.lookup_isSome.mpr hin)
  obtain ⟨hdMem, -, -, -, hmapped⟩ := h.backed.region ptr data hlookup
  obtain ⟨p, hheld, hmap, hname⟩ := hmapped hawake
  have hdevice : (t.sleepRegion offloadTags ptr).device = t.device.unmapAndRelease data.handle := by
    simp only [CaMemAllocator.sleepRegion, hlookup]
  have hun := Device.unmapAndRelease_eq (by rwa [hdMem]) hname hheld
  -- the bytes are still where they were before `sleep`
  have hbytes : t.device.memcpyDeviceToHost ptr = s.device.memcpyDeviceToHost ptr := by
    rw [Device.memcpyDeviceToHost, Device.memcpyDeviceToHost, h.mapping_awake ptr hawake, h.bytes_eq]
  have hregions : (t.sleepRegion offloadTags ptr).pointerToData =
      t.pointerToData.insert ptr (s.offloaded offloadTags ptr data) := by
    simp only [CaMemAllocator.sleepRegion, hlookup, offloaded, hbytes]
  refine ⟨backed_sleepRegion h.backed offloadTags hin hawake, ?_, ?_, ?_, ?_, ?_⟩
  · intro q hq
    rw [hregions]
    by_cases hne : q = ptr
    · subst hne
      rw [AList.lookup_insert, ← h.lookup_awake q hawake, hlookup, Option.map_some]
    · rw [AList.lookup_insert_ne hne]
      exact h.lookup_asleep q ((Finset.mem_insert.mp hq).resolve_left hne)
  · intro q hq
    obtain ⟨hne, hq⟩ := not_or.mp fun hor => hq (Finset.mem_insert.mpr hor)
    rw [hregions, AList.lookup_insert_ne hne]
    exact h.lookup_awake q hq
  · intro q hq
    obtain ⟨hne, hq⟩ := not_or.mp fun hor => hq (Finset.mem_insert.mpr hor)
    rw [hdevice, hun, ← h.mapping_awake q hq]
    exact Function.update_of_ne (by rwa [hdMem]) _ _
  · rw [hdevice, hun]
    exact h.bytes_eq
  · rw [hdevice, hun]
    exact h.created_eq

/-- **After `sleep` every record is the offloaded one**, and nothing was written. -/
theorem fallingAsleep_sleep (hb : Backed ∅ s.pointerToData s.device)
    (offloadTags : Option (List String)) :
    FallingAsleep s (offloadTags.getD [defaultTag]) s.pointerToData.keys.toFinset
      (s.sleep offloadTags) :=
  sleep_induction (P := FallingAsleep s (offloadTags.getD [defaultTag])) offloadTags
    (fun h hin hawake => h.sleepRegion hin hawake)
    ⟨hb, fun _ hin => absurd hin (Finset.notMem_empty _), fun _ _ => rfl, fun _ _ => rfl, rfl, rfl⟩

/-! ## Waking up -/

/-- What the wake-ups have done when the regions `asleep` are left, from the state `u` they started in. -/
structure WakingUp (u : CaMemAllocator) (asleep : Finset ℕ) (t : CaMemAllocator) : Prop where
  backed : Backed asleep t.pointerToData t.device
  lookup_asleep : ∀ ptr ∈ asleep, t.pointerToData.lookup ptr = u.pointerToData.lookup ptr
  lookup_awake : ∀ ptr ∉ asleep, t.pointerToData.lookup ptr =
    (u.pointerToData.lookup ptr).map fun data => { data with cpuBackupTensor := none }
  bytes_awake : ∀ ptr data, ptr ∉ asleep → u.pointerToData.lookup ptr = some data →
    ∃ h, t.device.mapping ptr = some h ∧ u.device.created ≤ h ∧
      t.device.bytes h = data.cpuBackupTensor.getD (u.device.bytes h)
  bytes_fresh : ∀ h, t.device.created ≤ h → t.device.bytes h = u.device.bytes h
  created_le : u.device.created ≤ t.device.created

/-- The memory of a region that is woken up: new, and filled from the backup if there is one. -/
theorem wakeRegion_eq (hlookup : t.pointerToData.lookup ptr = some data)
    {tags : Option (List String)} (hwakes : wakes tags data.tag) (hdMem : data.handle.dMem = ptr)
    (hreserved : ptr ∈ t.device.reserved) (hunmapped : t.device.mapping ptr = none) :
    (∀ q, (t.wakeRegion tags ptr).pointerToData.lookup q = if q = ptr then
        some { data with cpuBackupTensor := none } else t.pointerToData.lookup q) ∧
      (t.wakeRegion tags ptr).device.mapping =
        Function.update t.device.mapping ptr (some t.device.created) ∧
      (t.wakeRegion tags ptr).device.created = t.device.created + 1 ∧
      (t.wakeRegion tags ptr).device.bytes = Function.update t.device.bytes t.device.created
        (data.cpuBackupTensor.getD (t.device.bytes t.device.created)) := by
  subst hdMem
  have hmap := Device.createAndMap_eq hreserved hunmapped
  simp only [wakeRegion, hlookup, hwakes, if_true]
  cases hbackup : data.cpuBackupTensor with
  | none =>
    have hdata : { data with cpuBackupTensor := none } = data := by rw [← hbackup]
    refine ⟨fun q => ?_, by simp [hmap], by simp [hmap], by simp [hmap]⟩
    dsimp only
    split
    · next hq => rw [hq, hlookup, hdata]
    · rfl
  | some cpuBackup =>
    refine ⟨fun q => ?_, ?_, ?_, ?_⟩
    · dsimp only
      split
      · next hq => rw [hq, AList.lookup_insert]
      · next hq => rw [AList.lookup_insert_ne hq]
    all_goals simp [hmap, Device.memcpyHostToDevice]

/-- **A round gives the region its backup**, and leaves the other regions alone. -/
theorem WakingUp.wakeRegion (h : WakingUp u asleep t) {tags : Option (List String)}
    (hwoken : t.IsWoken tags ptr) (hasleep : ptr ∈ asleep) :
    WakingUp u (asleep.erase ptr) (t.wakeRegion tags ptr) := by
  have hbacked := backed_wakeRegion h.backed hwoken hasleep
  obtain ⟨data, hlookup, hwakes⟩ := hwoken
  obtain ⟨hdMem, hreserved, -, hunmapped, -⟩ := h.backed.region ptr data hlookup
  obtain ⟨hregions, hmapping, hcreated, hbytes⟩ :=
    wakeRegion_eq hlookup hwakes hdMem hreserved (hunmapped hasleep)
  have hstored : u.pointerToData.lookup ptr = some data := by
    rw [← h.lookup_asleep ptr hasleep, hlookup]
  refine ⟨hbacked, ?_, ?_, ?_, ?_, ?_⟩
  · intro q hq
    obtain ⟨hne, hq⟩ := Finset.mem_erase.mp hq
    rw [hregions, if_neg hne]
    exact h.lookup_asleep q hq
  · intro q hq
    rw [hregions]
    split
    · next heq => rw [heq, hstored, Option.map_some]
    · next hne => exact h.lookup_awake q fun hin => hq (Finset.mem_erase.mpr ⟨hne, hin⟩)
  · intro q data' hq hget
    by_cases hne : q = ptr
    · subst hne
      obtain rfl := Option.some.inj (hstored.symm.trans hget)
      refine ⟨t.device.created, ?_, h.created_le, ?_⟩
      · rw [hmapping, Function.update_self]
      · rw [hbytes, Function.update_self, h.bytes_fresh _ le_rfl]
    · obtain ⟨p, hmap, hge, hfilled⟩ :=
        h.bytes_awake q data' (fun hin => hq (Finset.mem_erase.mpr ⟨hne, hin⟩)) hget
      -- memory in use is older than the memory just allocated
      have hold : p ≠ t.device.created :=
        (h.backed.held_lt p (h.backed.mapping_mem q p hmap).2).ne
      refine ⟨p, ?_, hge, ?_⟩
      · rw [hmapping, Function.update_of_ne hne, hmap]
      · rw [hbytes, Function.update_of_ne hold, hfilled]
  · intro p hp
    rw [hcreated] at hp
    rw [hbytes, Function.update_of_ne (by omega), h.bytes_fresh p (by omega)]
  · rw [hcreated]
    exact h.created_le.trans (Nat.le_succ _)

theorem WakingUp.wakeUp (h : WakingUp u asleep t) {tags : Option (List String)}
    (hall : ∀ p, t.IsWoken tags p → p ∈ asleep) :
    WakingUp u (asleep.filter fun p => ¬ t.IsWoken tags p) (t.wakeUp tags) :=
  wakeUp_induction tags (fun h hwoken hasleep => h.wakeRegion hwoken hasleep) hall h

/-- The tags are those the wake-ups started with. -/
theorem WakingUp.isWoken_iff (h : WakingUp u asleep t) (tags : Option (List String)) (ptr : ℕ) :
    t.IsWoken tags ptr ↔ u.IsWoken tags ptr := by
  by_cases hasleep : ptr ∈ asleep
  · simp only [IsWoken, h.lookup_asleep ptr hasleep]
  · simp only [IsWoken, h.lookup_awake ptr hasleep, Option.map_eq_some_iff]
    constructor
    · rintro ⟨_, ⟨data, hlookup, rfl⟩, hwakes⟩
      exact ⟨data, hlookup, hwakes⟩
    · rintro ⟨data, hlookup, hwakes⟩
      exact ⟨_, ⟨data, hlookup, rfl⟩, hwakes⟩

/-! ## There and back -/

/-- **The allocator after a cycle.**  Every region is as it was, in new memory that holds its bytes if its
tag was offloaded and what the device gave if it was not. -/
structure RoundTrip (s : CaMemAllocator) (offloadTags : Option (List String)) (t : CaMemAllocator) :
    Prop where
  lookup_eq : ∀ ptr, t.pointerToData.lookup ptr = s.pointerToData.lookup ptr
  mapped : ∀ ptr data, s.pointerToData.lookup ptr = some data → ∃ h, t.device.mapping ptr = some h ∧
    t.device.memHandle data.handle.pMemHandle = some h
  offloaded : ∀ ptr data, s.pointerToData.lookup ptr = some data →
    data.tag ∈ offloadTags.getD [defaultTag] →
      t.device.memcpyDeviceToHost ptr = s.device.memcpyDeviceToHost ptr
  discarded : ∀ ptr data, s.pointerToData.lookup ptr = some data →
    data.tag ∉ offloadTags.getD [defaultTag] →
      ∃ h, t.device.mapping ptr = some h ∧ s.device.created ≤ h ∧ t.device.bytes h = s.device.bytes h
  no_backup : ∀ ptr data, t.pointerToData.lookup ptr = some data → data.cpuBackupTensor = none
  getCurrentUsage_eq : t.getCurrentUsage = s.getCurrentUsage

/-- Everything fell asleep, and everything woke up again. -/
theorem FallingAsleep.roundTrip {offloadTags : Option (List String)}
    (hsleep : FallingAsleep s (offloadTags.getD [defaultTag]) s.pointerToData.keys.toFinset u)
    (hbackup : ∀ ptr data, s.pointerToData.lookup ptr = some data → data.cpuBackupTensor = none)
    (hwake : WakingUp u ∅ t) : RoundTrip s offloadTags t := by
  have hslept : ∀ ptr data, s.pointerToData.lookup ptr = some data →
      u.pointerToData.lookup ptr =
        some (s.offloaded (offloadTags.getD [defaultTag]) ptr data) := by
    intro ptr data hlookup
    have hin : ptr ∈ s.pointerToData.keys.toFinset := List.mem_toFinset.mpr
      (AList.lookup_isSome.mp (by rw [hlookup]; rfl))
    rw [hsleep.lookup_asleep ptr hin, hlookup, Option.map_some]
  have hlookup_eq : ∀ ptr, t.pointerToData.lookup ptr = s.pointerToData.lookup ptr := by
    intro ptr
    rw [hwake.lookup_awake ptr (Finset.notMem_empty _)]
    cases hlookup : s.pointerToData.lookup ptr with
    | none =>
      have hnot : ptr ∉ s.pointerToData.keys.toFinset := fun hin => by
        have hsome := AList.lookup_isSome.mpr (List.mem_toFinset.mp hin)
        rw [hlookup] at hsome
        cases hsome
      rw [hsleep.lookup_awake ptr hnot, hlookup, Option.map_none]
    | some data =>
      have hnone := hbackup ptr data hlookup
      rw [hslept ptr data hlookup, Option.map_some, CaMemAllocator.offloaded]
      obtain ⟨handle, tag, backup⟩ := data
      cases hnone
      split <;> rfl
  have hbytes : ∀ ptr data, s.pointerToData.lookup ptr = some data →
      ∃ h, t.device.mapping ptr = some h ∧ s.device.created ≤ h ∧ t.device.bytes h =
        (s.offloaded (offloadTags.getD [defaultTag]) ptr data).cpuBackupTensor.getD
          (s.device.bytes h) := by
    intro ptr data hlookup
    have hwoken := hwake.bytes_awake ptr _ (Finset.notMem_empty _) (hslept ptr data hlookup)
    rwa [hsleep.created_eq, hsleep.bytes_eq] at hwoken
  refine ⟨hlookup_eq, ?_, ?_, ?_, ?_, getCurrentUsage_congr hlookup_eq⟩
  · intro ptr data hlookup
    obtain ⟨h, -, hmap, hname⟩ := (hwake.backed.region ptr data
      ((hlookup_eq ptr).trans hlookup)).mapped (Finset.notMem_empty _)
    exact ⟨h, hmap, hname⟩
  · intro ptr data hlookup hmem
    obtain ⟨h, hmap, -, hfilled⟩ := hbytes ptr data hlookup
    rw [Device.memcpyDeviceToHost, hmap, Option.elim_some, hfilled, CaMemAllocator.offloaded,
      if_pos hmem, Option.getD_some]
  · intro ptr data hlookup hnot
    obtain ⟨h, hmap, hge, hfilled⟩ := hbytes ptr data hlookup
    refine ⟨h, hmap, hge, ?_⟩
    rw [hfilled, CaMemAllocator.offloaded, if_neg hnot, hbackup ptr data hlookup, Option.getD_none]
  · intro ptr data hlookup
    exact hbackup ptr data ((hlookup_eq ptr).symm.trans hlookup)

/-! ## Backups -/

/-- Only regions that are asleep have a backup. -/
def BackupAsleep (asleep : Finset ℕ) (s : CaMemAllocator) : Prop :=
  ∀ ptr data, s.pointerToData.lookup ptr = some data → data.cpuBackupTensor ≠ none → ptr ∈ asleep

theorem BackupAsleep.myMalloc (h : BackupAsleep asleep s) (granularity size device dMem pMemHandle : ℕ) :
    BackupAsleep asleep (s.myMalloc granularity size device dMem pMemHandle) := by
  intro ptr data hlookup hbackup
  simp only [CaMemAllocator.myMalloc, pythonMallocCallback] at hlookup
  by_cases hne : ptr = dMem
  · subst hne
    rw [AList.lookup_insert, Option.some.injEq] at hlookup
    subst hlookup
    exact absurd rfl hbackup
  · rw [AList.lookup_insert_ne hne] at hlookup
    exact h ptr data hlookup hbackup

theorem BackupAsleep.myFree (h : BackupAsleep asleep s) (hin : ptr ∈ s.pointerToData) :
    BackupAsleep (asleep.erase ptr) (s.myFree ptr) := by
  obtain ⟨data, hlookup⟩ := Option.isSome_iff_exists.mp (AList.lookup_isSome.mpr hin)
  intro q data' hget hbackup
  simp only [CaMemAllocator.myFree, pythonFreeCallback, hlookup, Option.bind_eq_bind, Option.bind_some,
    Option.pure_def] at hget
  have hne : q ≠ ptr := by
    rintro rfl
    rw [AList.lookup_erase] at hget
    cases hget
  rw [AList.lookup_erase_ne hne] at hget
  exact Finset.mem_erase.mpr ⟨hne, h q data' hget hbackup⟩

theorem FallingAsleep.backupAsleep {offloadTags : List String}
    (h : FallingAsleep s offloadTags s.pointerToData.keys.toFinset t) :
    BackupAsleep s.pointerToData.keys.toFinset t := by
  intro ptr data hlookup _
  by_contra hnot
  rw [h.lookup_awake ptr hnot] at hlookup
  exact hnot (List.mem_toFinset.mpr (AList.lookup_isSome.mp (by rw [hlookup]; rfl)))

/-- **Each wake-up of a region takes its backup with it.** -/
theorem BackupAsleep.wakeUp (h : BackupAsleep asleep s) (hb : Backed asleep s.pointerToData s.device)
    {tags : Option (List String)} (hall : ∀ p, s.IsWoken tags p → p ∈ asleep) :
    BackupAsleep (asleep.filter fun p => ¬ s.IsWoken tags p) (s.wakeUp tags) := by
  refine (wakeUp_induction (P := fun asleep s => Backed asleep s.pointerToData s.device ∧
    BackupAsleep asleep s) tags (fun ⟨hb, h⟩ hwoken hasleep => ?_) hall ⟨hb, h⟩).2
  refine ⟨backed_wakeRegion hb hwoken hasleep, fun q data' hget hbackup => ?_⟩
  obtain ⟨data, hlookup, hwakes⟩ := hwoken
  obtain ⟨hdMem, hreserved, -, hunmapped, -⟩ := hb.region _ data hlookup
  rw [(wakeRegion_eq hlookup hwakes hdMem hreserved (hunmapped hasleep)).1] at hget
  split at hget
  · cases hget
    exact absurd rfl hbackup
  · next hne => exact Finset.mem_erase.mpr ⟨hne, h q data' hget hbackup⟩

end CaMemAllocator

/-! ## Runs -/

namespace SleepSystem

/-- Addresses and cells are new, what is freed or put to sleep is awake, and what is woken up is
asleep. -/
def Sound (s : SleepSystem) : MemoryEvent → Prop
  | .malloc _ _ _ dMem pMemHandle =>
    dMem ∉ s.allocator.device.reserved ∧ pMemHandle ∉ s.allocator.device.cells
  | .free ptr => ptr ∈ s.allocator.pointerToData ∧ ptr ∉ s.asleep
  | .sleep _ => s.asleep = ∅
  | .wakeUp tags => ∀ ptr, s.allocator.IsWoken tags ptr → ptr ∈ s.asleep

/-- **The states that runs lead to**, whatever the program writes into its tensors in between. -/
inductive Reached (granularity : ℕ) : SleepSystem → Prop
  | init (bytes : ℕ → List UInt8) : Reached granularity (init bytes)
  | step {s t : SleepSystem} {e : MemoryEvent} (hs : Reached granularity s) (hsound : s.Sound e)
      (h : s.step granularity e = .ok t) : Reached granularity t
  | write {s : SleepSystem} (hs : Reached granularity s) (ptr : ℕ) (bytes : List UInt8) :
      Reached granularity { s with allocator := s.allocator.write ptr bytes }

variable {granularity : ℕ} {s t : SleepSystem}

namespace Reached

/-- The history says what is mapped, and which backups there are. -/
theorem invariant (h : Reached granularity s) :
    s.Known ∧ CaMemAllocator.BackupAsleep s.asleep s.allocator := by
  induction h with
  | init bytes =>
    exact ⟨init_known bytes, fun ptr data hlookup => by simp [SleepSystem.init] at hlookup⟩
  | @step s t e _ hsound ht ih =>
    obtain ⟨hknown, hbackup⟩ := ih
    cases e with
    | malloc tag size device dMem pMemHandle =>
      cases ht
      exact ⟨CaMemAllocator.backed_myMalloc (s := { s.allocator with currentTag := tag }) hknown _ _ _
        hsound.1 hsound.2, CaMemAllocator.BackupAsleep.myMalloc
        (s := { s.allocator with currentTag := tag }) hbackup _ _ _ _ _⟩
    | free ptr =>
      cases ht
      exact ⟨CaMemAllocator.backed_myFree hknown hsound.1 hsound.2, hbackup.myFree hsound.1⟩
    | sleep offloadTags =>
      cases ht
      have hempty : s.asleep = ∅ := hsound
      rw [Known, hempty] at hknown
      exact ⟨CaMemAllocator.backed_sleep hknown offloadTags,
        (CaMemAllocator.fallingAsleep_sleep hknown offloadTags).backupAsleep⟩
    | wakeUp tags =>
      cases ht
      exact ⟨CaMemAllocator.backed_wakeUp hknown hsound, hbackup.wakeUp hknown hsound⟩
  | write _ ptr bytes ih => exact ⟨Backed.memcpyHostToDevice ih.1 bytes, ih.2⟩

/-- **No backup is left while everything is awake.** -/
theorem no_backup (h : Reached granularity s) (hawake : s.asleep = ∅) {ptr : ℕ} {data : AllocationData}
    (hlookup : s.allocator.pointerToData.lookup ptr = some data) : data.cpuBackupTensor = none := by
  by_contra hbackup
  have hin := h.invariant.2 ptr data hlookup hbackup
  rw [hawake] at hin
  exact Finset.notMem_empty ptr hin

/-- A backup is what is left of a region that is asleep. -/
theorem backup_asleep (h : Reached granularity s) {ptr : ℕ} {data : AllocationData}
    (hlookup : s.allocator.pointerToData.lookup ptr = some data)
    (hbackup : data.cpuBackupTensor ≠ none) : ptr ∈ s.asleep := h.invariant.2 ptr data hlookup hbackup

end Reached

/-- The wake-ups take every region of the allocator once. -/
def CoversOnce (s : CaMemAllocator) (calls : List (Option (List String))) : Prop :=
  ∀ ptr data, s.pointerToData.lookup ptr = some data →
    calls.countP (CaMemAllocator.wakes · data.tag) = 1

/-- One cycle: `sleep`, then the wake-ups in their order. -/
def sleepCycle (offloadTags : Option (List String)) (calls : List (Option (List String))) :
    List MemoryEvent := .sleep offloadTags :: calls.map .wakeUp

/-- The wake-ups of a cycle, when each region that is asleep has one wake-up left and no other region
has one. -/
theorem feed_wakeUps {u : CaMemAllocator} : ∀ {calls : List (Option (List String))} {t : SleepSystem},
    Reached granularity t → CaMemAllocator.WakingUp u t.asleep t.allocator →
      (∀ ptr data, u.pointerToData.lookup ptr = some data →
        calls.countP (CaMemAllocator.wakes · data.tag) = if ptr ∈ t.asleep then 1 else 0) →
      Returns (feed (step granularity) t (calls.map .wakeUp)) fun t' =>
        Reached granularity t' ∧ t'.asleep = ∅ ∧ CaMemAllocator.WakingUp u ∅ t'.allocator
  | [], t, ht, hwake, hcount => by
    have hempty : t.asleep = ∅ := Finset.eq_empty_of_forall_notMem fun ptr hin => by
      obtain ⟨data, hlookup⟩ := Option.isSome_iff_exists.mp
        (AList.lookup_isSome.mpr (hwake.backed.asleep_mem ptr hin))
      have hone := hcount ptr data ((hwake.lookup_asleep ptr hin).symm.trans hlookup)
      rw [if_pos hin] at hone
      cases hone
    exact ⟨t, rfl, ht, hempty, hempty ▸ hwake⟩
  | tags :: calls, t, ht, hwake, hcount => by
    have hall : ∀ ptr, t.allocator.IsWoken tags ptr → ptr ∈ t.asleep := by
      intro ptr hwoken
      obtain ⟨data, hlookup, hwakes⟩ := (hwake.isWoken_iff tags ptr).mp hwoken
      have hpos := hcount ptr data hlookup
      simp only [List.countP_cons, hwakes, if_true] at hpos
      by_contra hnot
      rw [if_neg hnot] at hpos
      cases hpos
    refine feed_wakeUps (t := ⟨t.allocator.wakeUp tags, _, _⟩) (ht.step (e := .wakeUp tags) hall rfl)
      (hwake.wakeUp hall) fun ptr data hlookup => ?_
    have hrest := hcount ptr data hlookup
    by_cases hwakes : CaMemAllocator.wakes tags data.tag
    · have hwoken : t.allocator.IsWoken tags ptr :=
        (hwake.isWoken_iff tags ptr).mpr ⟨data, hlookup, hwakes⟩
      simp only [List.countP_cons, hwakes, if_true, hall ptr hwoken] at hrest
      simp only [Finset.mem_filter, hwoken, not_true_eq_false, and_false, if_false]
      exact Nat.succ_injective hrest
    · have hnot : ¬ t.allocator.IsWoken tags ptr := fun hwoken => by
        obtain ⟨data', hlookup', hwakes'⟩ := (hwake.isWoken_iff tags ptr).mp hwoken
        cases hlookup.symm.trans hlookup'
        exact hwakes hwakes'
      simp only [List.countP_cons, hwakes, Bool.false_eq_true, if_false, add_zero] at hrest
      simp only [Finset.mem_filter, hnot, not_false_eq_true, and_true]
      exact hrest

/-- A cycle from a reached state in which everything is awake. -/
theorem Reached.roundTrip (hs : Reached granularity s) (hawake : s.asleep = ∅)
    (offloadTags : Option (List String)) {calls : List (Option (List String))}
    (hcovers : CoversOnce s.allocator calls) :
    Returns (feed (SleepSystem.step granularity) s (sleepCycle offloadTags calls)) fun t =>
      Reached granularity t ∧ t.asleep = ∅ ∧ s.allocator.RoundTrip offloadTags t.allocator := by
  have hbacked : Backed ∅ s.allocator.pointerToData s.allocator.device := hawake ▸ hs.invariant.1
  have hsleep := CaMemAllocator.fallingAsleep_sleep hbacked offloadTags
  have hlookup : ∀ ptr data, (s.allocator.sleep offloadTags).pointerToData.lookup ptr = some data →
      ptr ∈ s.allocator.pointerToData.keys.toFinset ∧ ∃ data',
        s.allocator.pointerToData.lookup ptr = some data' ∧ data'.tag = data.tag := by
    intro ptr data hget
    have hin : ptr ∈ s.allocator.pointerToData.keys.toFinset := by
      by_contra hnot
      rw [hsleep.lookup_awake ptr hnot] at hget
      exact hnot (List.mem_toFinset.mpr (AList.lookup_isSome.mp (by rw [hget]; rfl)))
    rw [hsleep.lookup_asleep ptr hin] at hget
    obtain ⟨data', hold, rfl⟩ := Option.map_eq_some_iff.mp hget
    refine ⟨hin, data', hold, ?_⟩
    rw [CaMemAllocator.offloaded]
    split <;> rfl
  obtain ⟨t, ht, hreached, hempty, hwake⟩ := feed_wakeUps
    (t := ⟨s.allocator.sleep offloadTags, _, _⟩)
    (hs.step (e := .sleep offloadTags) hawake rfl)
    ⟨hsleep.backed, fun _ _ => rfl, fun ptr hnot => by
      cases hget : (s.allocator.sleep offloadTags).pointerToData.lookup ptr with
      | none => rfl
      | some data => exact absurd (hlookup ptr data hget).1 hnot,
      fun ptr data hnot hget => absurd (hlookup ptr data hget).1 hnot, fun _ _ => rfl, le_rfl⟩
    (fun ptr data hget => by
      obtain ⟨hin, data', hold, htag⟩ := hlookup ptr data hget
      rw [if_pos hin, ← htag]
      exact hcovers ptr data' hold)
  exact ⟨t, ht, hreached, hempty,
    hsleep.roundTrip (fun _ _ hget => hs.no_backup hawake hget) hwake⟩

/-- **To sleep and back**, from any state in which everything is awake: the cycle gives every region its
address, its record and its bytes back, and leaves a state from which any later cycle does the same,
with nothing of this one restored into a region that the later `sleep` does not offload. -/
theorem sleep_wakeUp_roundTrip (hs : Reached granularity s) (hawake : s.asleep = ∅)
    (offloadTags : Option (List String)) {calls : List (Option (List String))}
    (hcovers : CoversOnce s.allocator calls) :
    Returns (feed (step granularity) s (sleepCycle offloadTags calls)) fun t =>
      s.allocator.RoundTrip offloadTags t.allocator ∧ Reached granularity t ∧ t.asleep = ∅ ∧
        ∀ offloadTags' calls', CoversOnce t.allocator calls' →
          Returns (feed (step granularity) t (sleepCycle offloadTags' calls')) fun t' =>
            t.allocator.RoundTrip offloadTags' t'.allocator := by
  obtain ⟨t, ht, hreached, hempty, htrip⟩ := hs.roundTrip hawake offloadTags hcovers
  refine ⟨t, ht, htrip, hreached, hempty, fun offloadTags' calls' hcovers' => ?_⟩
  obtain ⟨t', ht', -, -, htrip'⟩ := hreached.roundTrip hempty offloadTags' hcovers'
  exact ⟨t', ht', htrip'⟩

/-- Two regions, one of which was written. -/
def twoRegions : SleepSystem :=
  match feed (step 2) (init fun _ => []) [.malloc "weights" 3 0 8 1, .malloc "kv_cache" 4 0 12 2] with
  | .ok s => { s with allocator := s.allocator.write 8 [1, 2, 3, 4] }
  | .error _ => init fun _ => []

theorem twoRegions_reached : Reached 2 twoRegions :=
  .write (.step (e := .malloc "kv_cache" 4 0 12 2)
    (.step (e := .malloc "weights" 3 0 8 1) (.init fun _ => []) ⟨by decide, by decide⟩ rfl)
    ⟨by decide, by decide⟩ rfl) 8 [1, 2, 3, 4]

theorem twoRegions_coversOnce :
    CoversOnce twoRegions.allocator [some ["kv_cache"], some ["weights"]] := by
  intro ptr data hlookup
  have hregions : twoRegions.allocator.pointerToData =
      ((∅ : AList fun _ : ℕ => AllocationData).insert 8 ⟨⟨0, 4, 8, 1⟩, "weights", none⟩).insert 12
        ⟨⟨0, 4, 12, 2⟩, "kv_cache", none⟩ := rfl
  rw [hregions] at hlookup
  by_cases hptr : ptr = 12
  · subst hptr
    rw [AList.lookup_insert] at hlookup
    cases hlookup
    decide
  · rw [AList.lookup_insert_ne hptr] at hlookup
    by_cases hptr : ptr = 8
    · subst hptr
      rw [AList.lookup_insert] at hlookup
      cases hlookup
      decide
    · rw [AList.lookup_insert_ne hptr] at hlookup
      cases hlookup

theorem twoRegions_roundTrip :
    Returns (feed (step 2) twoRegions
        (sleepCycle (some ["weights"]) [some ["kv_cache"], some ["weights"]])) fun t =>
      twoRegions.allocator.RoundTrip (some ["weights"]) t.allocator ∧ Reached 2 t ∧ t.asleep = ∅ ∧
        ∀ offloadTags' calls', CoversOnce t.allocator calls' →
          Returns (feed (step 2) t (sleepCycle offloadTags' calls')) fun t' =>
            t.allocator.RoundTrip offloadTags' t'.allocator :=
  sleep_wakeUp_roundTrip twoRegions_reached rfl (some ["weights"]) twoRegions_coversOnce

/-- The region that is offloaded has its bytes again, the other one holds nothing. -/
example : Returns (feed (step 2) twoRegions
    (sleepCycle (some ["weights"]) [some ["kv_cache"], some ["weights"]])) fun t =>
      t.allocator.device.memcpyDeviceToHost 8 = [1, 2, 3, 4] ∧
        t.allocator.device.memcpyDeviceToHost 12 = [] := by
  decide +kernel

end SleepSystem

end VllmAscend
