import HrxSystem.Libhrx.RuntimeBooks

namespace HrxSystem.Libhrx

open External Program Counting

/-- A reference to an object of the library, by the handle that names it. -/
inductive Ref
  | device (d : DevicePtr)
  | semaphore (s : SemaphorePtr)
  | stream (a : ℕ)
  | buffer (b : BufferPtr)
  | executable (x : ExecutablePtr)
  | module_ (m : ModulePtr)
  | function (a : ℕ)
deriving DecidableEq

def HrxDeviceS.ptr (d : HrxDeviceS) (a : ℕ) : DevicePtr :=
  ⟨a, d.halDevice, d.halAllocator, d.halDeviceGroup⟩

def HrxSemaphoreS.ptr (s : HrxSemaphoreS) (a : ℕ) : SemaphorePtr := ⟨a, s.hal⟩

def HrxBufferS.ptr (b : HrxBufferS) (a : ℕ) : BufferPtr := ⟨a, b.halBuffer⟩

def HrxExecutableS.ptr (x : HrxExecutableS) (a : ℕ) : ExecutablePtr := ⟨a, x.halExecutable⟩

def HrxModuleS.ptr (m : HrxModuleS) (a : ℕ) : ModulePtr := ⟨a, m.context⟩

section StrongOf

variable {T : Type} {p : T → Bool}

def strongOf (p : T → Bool) (v : Option (Arc T)) : Option ℕ :=
  (v.filter fun arc ↦ p arc.data).map Arc.strong

@[simp] theorem strongOf_none : strongOf p none = none := rfl

theorem strongOf_some (arc : Arc T) :
    strongOf p (some arc) = if p arc.data then some arc.strong else none := by
  cases hp : p arc.data <;> simp [strongOf, Option.filter, hp]

theorem strongOf_eq_some {v : Option (Arc T)} {n : ℕ} :
    strongOf p v = some n ↔ ∃ x, v = some ⟨n, x⟩ ∧ p x = true := by
  cases v with
  | none => simp
  | some arc =>
    rw [strongOf_some]
    constructor
    · intro h
      split at h
      · obtain rfl := Option.some.inj h
        exact ⟨arc.data, rfl, ‹_›⟩
      · cases h
    · rintro ⟨x, hx, hp⟩
      obtain rfl := Option.some.inj hx
      rw [if_pos hp]

end StrongOf

def cellOf (mem : Memory) : Ref → Option ℕ
  | .device d => strongOf (fun x ↦ x.ptr d.addr = d) (mem.devices.cell d.addr)
  | .semaphore s => strongOf (fun x ↦ x.ptr s.addr = s) (mem.semaphores.cell s.addr)
  | .stream a => strongOf (fun _ ↦ true) (mem.streams.cell a)
  | .buffer b => strongOf (fun x ↦ x.ptr b.addr = b) (mem.buffers.cell b.addr)
  | .executable x => strongOf (fun y ↦ y.ptr x.addr = x) (mem.executables.cell x.addr)
  | .module_ m => strongOf (fun x ↦ x.ptr m.addr = m) (mem.modules.cell m.addr)
  | .function a => strongOf (fun _ ↦ true) (mem.functions.cell a)

def HrxSemaphoreS.refs (s : HrxSemaphoreS) : Multiset Ref := {.device s.device}

/-- A stream whose semaphore is the NULL pointer holds none. -/
def HrxStreamS.refs (s : HrxStreamS) : Multiset Ref :=
  {.device s.device} + if s.semaphore.addr = 0 then 0 else {.semaphore s.semaphore}

def HrxBufferS.refs (b : HrxBufferS) : Multiset Ref := {.device b.device}

def HrxExecutableS.refs (x : HrxExecutableS) : Multiset Ref := {.device x.device}

def HrxModuleS.refs (m : HrxModuleS) : Multiset Ref := {.device m.device}

def HrxFunctionS.refs (f : HrxFunctionS) : Multiset Ref := {.module_ f.module_}

def Globals.deviceRefs (g : Globals) : Multiset Ref :=
  (g.cpu.devices.map Ref.device : Multiset Ref) + (g.gpu.devices.map Ref.device : Multiset Ref)

def refsIn (mem : Memory) : Multiset Ref :=
  mem.globals.deviceRefs + mem.semaphores.total HrxSemaphoreS.refs + mem.streams.total
    HrxStreamS.refs +
    mem.buffers.total HrxBufferS.refs + mem.executables.total HrxExecutableS.refs +
    mem.modules.total HrxModuleS.refs + mem.functions.total HrxFunctionS.refs

def PoolPtr.parts (p : PoolPtr) : Multiset Res :=
  {.notification p.notification, .allocator p.allocator, .block p.addr}

def HrxSemaphoreS.parts (s : HrxSemaphoreS) : Multiset Res := {.semaphore s.hal}

def HrxBufferS.parts (b : HrxBufferS) : Multiset Res :=
  {.buffer b.halBuffer} + b.halPool.elim 0 PoolPtr.parts

def HrxExecutableS.parts (x : HrxExecutableS) : Multiset Res :=
  {.executable x.halExecutable, .executableCache x.halExecutableCache}

def HrxModuleS.parts (m : HrxModuleS) : Multiset Res :=
  {.context m.context, .vmModule m.halModule, .vmModule m.bytecodeModule}

/-- What the statics and all objects hold of IREE. -/
def estate (mem : Memory) : Multiset Res :=
  holdings mem + mem.semaphores.total HrxSemaphoreS.parts + mem.buffers.total HrxBufferS.parts +
    mem.executables.total HrxExecutableS.parts + mem.modules.total HrxModuleS.parts

/-- No semaphore is at the NULL address, and every function is one of `K`. -/
structure Known (K : ℕ → HrxFunctionS → Prop) (mem : Memory) : Prop where
  null : mem.semaphores.cell 0 = none
  functions : ∀ f arc, mem.functions.cell f = some arc → K f arc.data

/-- A kind of object with what its objects hold, and what the rest of the memory holds. -/
structure Owner (T : Type) where
  kind : Kind T
  name : ℕ → T → Ref
  refs : T → Multiset Ref
  parts : T → Multiset Res
  otherRefs : Memory → Multiset Ref
  otherParts : Memory → Multiset Res
  name_addr : ∀ {a b x y}, name a x = name b y → a = b
  cellOf_name : ∀ mem a x, cellOf mem (name a x) = strongOf (fun y ↦ name a y = name a x)
    ((kind.heap mem).cell a)
  cellOf_store : ∀ mem h r, (∀ a x, r ≠ name a x) → cellOf (kind.store h mem) r = cellOf mem r
  refsIn_eq : ∀ mem, refsIn mem = otherRefs mem + (kind.heap mem).total refs
  otherRefs_store : ∀ mem h, otherRefs (kind.store h mem) = otherRefs mem
  estate_eq : ∀ mem, estate mem = otherParts mem + (kind.heap mem).total parts
  otherParts_store : ∀ mem h, otherParts (kind.store h mem) = otherParts mem
  globals_store : ∀ mem h, (kind.store h mem).globals = mem.globals
  known : (ℕ → HrxFunctionS → Prop) → ℕ → T → Prop
  known_store : ∀ K mem h, (∀ a arc, h.cell a = some arc →
    known K a arc.data ∨ ∃ k, (kind.heap mem).cell a = some ⟨k, arc.data⟩) → Known K mem →
    Known K (kind.store h mem)
  device_store : ∀ mem h, (kind.heap mem).Within h → mem.devices.Within (kind.store h mem).devices

namespace Owner

def devices : Owner HrxDeviceS where
  kind := .devices
  name a x := .device (x.ptr a)
  refs _ := 0
  parts := HrxDeviceS.parts
  otherRefs := refsIn
  otherParts mem := mem.globals.shared.parts + mem.globals.cpu.parts + mem.globals.gpu.parts +
    mem.semaphores.total HrxSemaphoreS.parts + mem.buffers.total HrxBufferS.parts +
    mem.executables.total HrxExecutableS.parts + mem.modules.total HrxModuleS.parts
  name_addr h := congrArg DevicePtr.addr (Ref.device.inj h)
  cellOf_name mem a x := by simp only [cellOf, Ref.device.injEq]; rfl
  cellOf_store mem h r hr := by
    cases r with
    | device d =>
      exact absurd rfl (hr d.addr ⟨0, 0, d.halAllocator, d.halDeviceGroup, d.halDevice, [], []⟩)
    | _ => rfl
  refsIn_eq mem := by rw [Heap.total_zero, add_zero]
  otherRefs_store _ _ := rfl
  estate_eq mem := by simp only [estate, holdings, Kind.devices]; abel
  otherParts_store _ _ := rfl
  globals_store _ _ := rfl
  known _ _ _ := True
  known_store _ _ _ _ h := ⟨h.null, h.functions⟩
  device_store _ _ hkept := hkept

def semaphores : Owner HrxSemaphoreS where
  kind := .semaphores
  name a x := .semaphore (x.ptr a)
  refs := HrxSemaphoreS.refs
  parts := HrxSemaphoreS.parts
  otherRefs mem :=
    mem.globals.deviceRefs + mem.streams.total HrxStreamS.refs + mem.buffers.total HrxBufferS.refs +
    mem.executables.total HrxExecutableS.refs + mem.modules.total
    HrxModuleS.refs + mem.functions.total HrxFunctionS.refs
  otherParts mem := holdings mem + mem.buffers.total HrxBufferS.parts +
    mem.executables.total HrxExecutableS.parts + mem.modules.total HrxModuleS.parts
  name_addr h := congrArg SemaphorePtr.addr (Ref.semaphore.inj h)
  cellOf_name mem a x := by simp only [cellOf, Ref.semaphore.injEq]; rfl
  cellOf_store mem h r hr := by
    cases r with
    | semaphore d => exact absurd rfl (hr d.addr ⟨d.hal, ⟨0, 0, 0, 0⟩⟩)
    | _ => rfl
  refsIn_eq mem := by simp only [refsIn, Kind.semaphores]; abel
  otherRefs_store _ _ := rfl
  estate_eq mem := by simp only [estate, Kind.semaphores]; abel
  otherParts_store _ _ := rfl
  globals_store _ _ := rfl
  known _ a _ := 0 < a
  known_store _ mem hp hnew h := by
    refine ⟨Option.eq_none_iff_forall_ne_some.mpr fun arc harc ↦ ?_, h.functions⟩
    rcases hnew 0 arc harc with hpos | ⟨k, hold⟩
    · exact absurd hpos (lt_irrefl 0)
    · have hfree := h.null.symm.trans hold
      cases hfree
  device_store _ _ _ := .refl _

def streams : Owner HrxStreamS where
  kind := .streams
  name a _ := .stream a
  refs := HrxStreamS.refs
  parts _ := 0
  otherRefs mem :=
    mem.globals.deviceRefs + mem.semaphores.total HrxSemaphoreS.refs + mem.buffers.total
      HrxBufferS.refs +
    mem.executables.total HrxExecutableS.refs + mem.modules.total
    HrxModuleS.refs + mem.functions.total HrxFunctionS.refs
  otherParts := estate
  name_addr h := Ref.stream.inj h
  cellOf_name mem a x := by simp only [cellOf, decide_true]; rfl
  cellOf_store mem h r hr := by
    cases r with
    | stream d => exact absurd rfl (hr d ⟨0, none, false, 0, .null, ⟨0, 0, 0, 0⟩⟩)
    | _ => rfl
  refsIn_eq mem := by simp only [refsIn, Kind.streams]; abel
  otherRefs_store _ _ := rfl
  estate_eq mem := by rw [Heap.total_zero, add_zero]
  otherParts_store _ _ := rfl
  globals_store _ _ := rfl
  known _ _ _ := True
  known_store _ _ _ _ h := ⟨h.null, h.functions⟩
  device_store _ _ _ := .refl _

def buffers : Owner HrxBufferS where
  kind := .buffers
  name a x := .buffer (x.ptr a)
  refs := HrxBufferS.refs
  parts := HrxBufferS.parts
  otherRefs mem :=
    mem.globals.deviceRefs + mem.semaphores.total HrxSemaphoreS.refs + mem.streams.total
      HrxStreamS.refs +
    mem.executables.total HrxExecutableS.refs + mem.modules.total
    HrxModuleS.refs + mem.functions.total HrxFunctionS.refs
  otherParts mem := holdings mem + mem.semaphores.total HrxSemaphoreS.parts +
    mem.executables.total HrxExecutableS.parts + mem.modules.total HrxModuleS.parts
  name_addr h := congrArg BufferPtr.addr (Ref.buffer.inj h)
  cellOf_name mem a x := by simp only [cellOf, Ref.buffer.injEq]; rfl
  cellOf_store mem h r hr := by
    cases r with
    | buffer d => exact absurd rfl (hr d.addr ⟨none, d.hal, none, ⟨0, 0, 0, 0⟩, 0, 0⟩)
    | _ => rfl
  refsIn_eq mem := by simp only [refsIn, Kind.buffers]; abel
  otherRefs_store _ _ := rfl
  estate_eq mem := by simp only [estate, Kind.buffers]; abel
  otherParts_store _ _ := rfl
  globals_store _ _ := rfl
  known _ _ _ := True
  known_store _ _ _ _ h := ⟨h.null, h.functions⟩
  device_store _ _ _ := .refl _

def executables : Owner HrxExecutableS where
  kind := .executables
  name a x := .executable (x.ptr a)
  refs := HrxExecutableS.refs
  parts := HrxExecutableS.parts
  otherRefs mem :=
    mem.globals.deviceRefs + mem.semaphores.total HrxSemaphoreS.refs + mem.streams.total
      HrxStreamS.refs +
    mem.buffers.total HrxBufferS.refs + mem.modules.total HrxModuleS.refs + mem.functions.total
    HrxFunctionS.refs
  otherParts mem := holdings mem + mem.semaphores.total HrxSemaphoreS.parts +
    mem.buffers.total HrxBufferS.parts + mem.modules.total HrxModuleS.parts
  name_addr h := congrArg ExecutablePtr.addr (Ref.executable.inj h)
  cellOf_name mem a x := by simp only [cellOf, Ref.executable.injEq]; rfl
  cellOf_store mem h r hr := by
    cases r with
    | executable d => exact absurd rfl (hr d.addr ⟨d.hal, 0, ⟨0, 0, 0, 0⟩⟩)
    | _ => rfl
  refsIn_eq mem := by simp only [refsIn, Kind.executables]; abel
  otherRefs_store _ _ := rfl
  estate_eq mem := by simp only [estate, Kind.executables]; abel
  otherParts_store _ _ := rfl
  globals_store _ _ := rfl
  known _ _ _ := True
  known_store _ _ _ _ h := ⟨h.null, h.functions⟩
  device_store _ _ _ := .refl _

def modules : Owner HrxModuleS where
  kind := .modules
  name a x := .module_ (x.ptr a)
  refs := HrxModuleS.refs
  parts := HrxModuleS.parts
  otherRefs mem :=
    mem.globals.deviceRefs + mem.semaphores.total HrxSemaphoreS.refs + mem.streams.total
      HrxStreamS.refs +
    mem.buffers.total HrxBufferS.refs + mem.executables.total
    HrxExecutableS.refs + mem.functions.total HrxFunctionS.refs
  otherParts mem := holdings mem + mem.semaphores.total HrxSemaphoreS.parts +
    mem.buffers.total HrxBufferS.parts + mem.executables.total HrxExecutableS.parts
  name_addr h := congrArg ModulePtr.addr (Ref.module_.inj h)
  cellOf_name mem a x := by simp only [cellOf, Ref.module_.injEq]; rfl
  cellOf_store mem h r hr := by
    cases r with
    | module_ d => exact absurd rfl (hr d.addr ⟨d.context, 0, 0, ⟨0, 0, 0, 0⟩⟩)
    | _ => rfl
  refsIn_eq mem := by simp only [refsIn, Kind.modules]; abel
  otherRefs_store _ _ := rfl
  estate_eq mem := by simp only [estate, Kind.modules]
  otherParts_store _ _ := rfl
  globals_store _ _ := rfl
  known _ _ _ := True
  known_store _ _ _ _ h := ⟨h.null, h.functions⟩
  device_store _ _ _ := .refl _

def functions : Owner HrxFunctionS where
  kind := .functions
  name a _ := .function a
  refs := HrxFunctionS.refs
  parts _ := 0
  otherRefs mem :=
    mem.globals.deviceRefs + mem.semaphores.total HrxSemaphoreS.refs + mem.streams.total
      HrxStreamS.refs +
    mem.buffers.total HrxBufferS.refs + mem.executables.total
    HrxExecutableS.refs + mem.modules.total HrxModuleS.refs
  otherParts := estate
  name_addr h := Ref.function.inj h
  cellOf_name mem a x := by simp only [cellOf, decide_true]; rfl
  cellOf_store mem h r hr := by
    cases r with
    | function d => exact absurd rfl (hr d ⟨⟨0, 0⟩, 0⟩)
    | _ => rfl
  refsIn_eq mem := by simp only [refsIn, Kind.functions]
  otherRefs_store _ _ := rfl
  estate_eq mem := by rw [Heap.total_zero, add_zero]
  otherParts_store _ _ := rfl
  globals_store _ _ := rfl
  known K a x := K a x
  known_store _ _ _ hnew h := by
    refine ⟨h.null, fun f arc harc ↦ ?_⟩
    rcases hnew f arc harc with hknown | ⟨k, hold⟩
    · exact hknown
    · exact h.functions f ⟨k, arc.data⟩ hold
  device_store _ _ _ := .refl _

end Owner

def counted (n : ℕ) : Option ℕ := if n = 0 then none else some n

@[simp] theorem counted_zero : counted 0 = none := rfl

@[simp] theorem counted_succ (n : ℕ) : counted (n + 1) = some (n + 1) := rfl

/-- Every strong count is the number of the references that the memory holds, and `e` outside of
it. -/
def Balanced (e : Multiset Ref) (mem : Memory) : Prop :=
  ∀ r, cellOf mem r = counted ((refsIn mem + e).count r)

section Balanced

variable {e e' : Multiset Ref} {mem mem' : Memory} {r : Ref}

theorem Balanced.up (hb : Balanced e mem) (hself : cellOf mem' r = some ((cellOf mem r).getD 0 + 1))
    (hrest : ∀ x, x ≠ r → cellOf mem' x = cellOf mem x)
    (htotal : refsIn mem' + e' = refsIn mem + e + {r}) :
    Balanced e' mem' := by
  intro x
  rw [htotal, Multiset.count_add]
  by_cases hx : x = r
  · subst hx
    rw [hself, hb x, Multiset.count_singleton_self, counted_succ]
    cases (refsIn mem + e).count x <;> rfl
  · rw [hrest x hx, hb x, Multiset.count_singleton, if_neg hx, add_zero]

theorem Balanced.down (hb : Balanced e mem) {n : ℕ} (hbefore : cellOf mem r = some n)
    (hself : cellOf mem' r = counted (n - 1)) (hrest : ∀ x, x ≠ r → cellOf mem' x = cellOf mem x)
    (htotal : refsIn mem' + e' + {r} = refsIn mem + e) : Balanced e' mem' := by
  intro x
  have hx := hb x
  rw [← htotal, Multiset.count_add] at hx
  by_cases hxr : x = r
  · subst hxr
    rw [hbefore, Multiset.count_singleton_self, counted_succ, Option.some.injEq] at hx
    rw [hself, hx, Nat.add_sub_cancel]
  · rw [hrest x hxr, hx, Multiset.count_singleton, if_neg hxr, add_zero]

theorem Balanced.congr (hb : Balanced e mem) (hcells : ∀ x, cellOf mem' x = cellOf mem x)
    (htotal : refsIn mem' + e' = refsIn mem + e) : Balanced e' mem' := by
  intro x
  rw [hcells, htotal, hb x]

theorem Balanced.live (hb : Balanced e mem) (hr : r ∈ refsIn mem + e) :
    ∃ n, cellOf mem r = some (n + 1) := by
  obtain ⟨n, hn⟩ := Nat.exists_eq_add_one.mpr (Multiset.count_pos.mpr hr)
  exact ⟨n, by rw [hb r, hn, counted_succ]⟩

end Balanced

namespace Owner

variable {T : Type} (w : Owner T) {e : Multiset Ref} {mem : Memory} {a : ℕ} {x : T}

theorem refsIn_put (mem : Memory) (a : ℕ) (v : Option (Arc T)) :
    refsIn (w.kind.store ((w.kind.heap mem).put a v) mem) + Heap.share w.refs
      ((w.kind.heap mem).cell a) =
      refsIn mem + Heap.share w.refs v := by
  rw [w.refsIn_eq, w.otherRefs_store, w.kind.heap_store, add_assoc, Heap.total_put, ← add_assoc,
    ← w.refsIn_eq]

theorem estate_put (mem : Memory) (a : ℕ) (v : Option (Arc T)) :
    estate (w.kind.store ((w.kind.heap mem).put a v) mem) + Heap.share w.parts
      ((w.kind.heap mem).cell a) =
      estate mem + Heap.share w.parts v := by
  rw [w.estate_eq, w.otherParts_store, w.kind.heap_store, add_assoc, Heap.total_put, ← add_assoc,
    ← w.estate_eq]

theorem cellOf_put (v : Option (Arc T)) (x : T) :
    cellOf (w.kind.store ((w.kind.heap mem).put a v) mem) (w.name a x) =
      strongOf (fun y ↦ w.name a y = w.name a x) v := by
  rw [w.cellOf_name, w.kind.heap_store, Heap.put_cell_self]

theorem strongOf_of_ne {v : Option (Arc T)}
    (h : ∀ arc, v = some arc → w.name a x ≠ w.name a arc.data) :
    strongOf (fun y ↦ w.name a y = w.name a x) v = none := by
  cases v with
  | none => rfl
  | some arc =>
    have hne : ¬ w.name a arc.data = w.name a x := fun heq ↦ h arc rfl heq.symm
    rw [strongOf_some, if_neg (by simpa using hne)]

/-- Only the handles of the old and the new object of a cell notice its change. -/
theorem cellOf_put_of_ne (v : Option (Arc T)) {r : Ref}
    (hold : ∀ arc, (w.kind.heap mem).cell a = some arc → r ≠ w.name a arc.data)
    (hnew : ∀ arc, v = some arc → r ≠ w.name a arc.data) :
    cellOf (w.kind.store ((w.kind.heap mem).put a v) mem) r = cellOf mem r := by
  by_cases hname : ∃ b y, r = w.name b y
  · obtain ⟨b, y, rfl⟩ := hname
    by_cases hb : b = a
    · subst hb
      rw [w.cellOf_put, w.cellOf_name, w.strongOf_of_ne hold, w.strongOf_of_ne hnew]
    · rw [w.cellOf_name, w.cellOf_name, w.kind.heap_store, Heap.put_cell_of_ne _ _ hb]
  · exact w.cellOf_store _ _ r fun b y h ↦ hname ⟨b, y, h⟩

theorem live_cell (hb : Balanced e mem) (hr : w.name a x ∈ refsIn mem + e) :
    ∃ n y, (w.kind.heap mem).cell a = some ⟨n + 1, y⟩ ∧ w.name a y = w.name a x := by
  obtain ⟨n, hn⟩ := hb.live hr
  rw [w.cellOf_name] at hn
  obtain ⟨y, hcell, hy⟩ := strongOf_eq_some.mp hn
  exact ⟨n, y, hcell, by simpa using hy⟩

theorem refs_le {arc : Arc T} (hcell : (w.kind.heap mem).cell a = some arc) :
    w.refs arc.data ≤ refsIn mem := by
  have hput := w.refsIn_put mem a none
  rw [hcell, Heap.share_some, Heap.share_none, add_zero] at hput
  rw [← hput]
  exact Multiset.le_add_left _ _

theorem cellOf_of_cell {arc : Arc T} (hcell : (w.kind.heap mem).cell a = some arc) :
    cellOf mem (w.name a arc.data) = some arc.strong := by
  rw [w.cellOf_name, hcell, strongOf_some, if_pos (by simp)]

theorem retain_balanced {arc : Arc T} (hcell : (w.kind.heap mem).cell a = some arc)
    (hb : Balanced e mem) :
    Balanced (e + {w.name a arc.data}) (w.kind.store ((w.kind.heap mem).retain a) mem) ∧
      estate (w.kind.store ((w.kind.heap mem).retain a) mem) = estate mem := by
  have hret : (w.kind.heap mem).retain a =
      (w.kind.heap mem).put a (some { arc with strong := arc.strong + 1 }) := by
    simp only [Heap.retain, hcell]
  have hrefs := w.refsIn_put mem a (some { arc with strong := arc.strong + 1 })
  have hparts := w.estate_put mem a (some { arc with strong := arc.strong + 1 })
  rw [hcell, Heap.share_some, Heap.share_some, add_left_inj] at hrefs hparts
  rw [hret]
  refine ⟨hb.up (r := w.name a arc.data) ?_ (fun x hx ↦ w.cellOf_put_of_ne _ ?_ ?_) ?_, hparts⟩
  · rw [w.cellOf_put, w.cellOf_of_cell hcell, strongOf_some, if_pos (by simp)]
    rfl
  · rintro arc' harc'
    rw [hcell] at harc'
    cases harc'
    exact hx
  · rintro arc' harc'
    cases harc'
    exact hx
  · rw [hrefs, add_assoc]

theorem new_balanced (obj : T) (hcell : (w.kind.heap mem).cell a = none)
    (hb : Balanced (e + w.refs obj) mem) :
    Balanced (e + {w.name a obj}) (w.kind.store ((w.kind.heap mem).put a (some ⟨1, obj⟩)) mem) ∧
      estate (w.kind.store ((w.kind.heap mem).put a (some ⟨1, obj⟩)) mem) =
        estate mem + w.parts obj := by
  have hrefs := w.refsIn_put mem a (some ⟨1, obj⟩)
  have hparts := w.estate_put mem a (some ⟨1, obj⟩)
  rw [hcell, Heap.share_none, Heap.share_some, add_zero] at hrefs hparts
  refine ⟨hb.up (r := w.name a obj) ?_ (fun x hx ↦ w.cellOf_put_of_ne _ ?_ ?_) ?_, hparts⟩
  · rw [w.cellOf_put, w.cellOf_name, hcell, strongOf_some, if_pos (by simp)]
    rfl
  · rw [hcell]
    exact nofun
  · rintro arc' harc'
    cases harc'
    exact hx
  · rw [hrefs]
    abel

theorem cellOf_modify {arc : Arc T} (hcell : (w.kind.heap mem).cell a = some arc)
    (hname : w.name a x = w.name a arc.data) (r : Ref) :
    cellOf (w.kind.store ((w.kind.heap mem).modify a fun _ ↦ x) mem) r = cellOf mem r := by
  have hmod :
      (w.kind.heap mem).modify a (fun _ ↦ x) = (w.kind.heap mem).put a (some ⟨arc.strong, x⟩) := by
    simp only [Heap.modify, hcell]
  rw [hmod]
  by_cases hr : r = w.name a arc.data
  · subst hr
    rw [w.cellOf_put, w.cellOf_of_cell hcell, strongOf_some, if_pos (by simpa using hname)]
  · refine w.cellOf_put_of_ne _ ?_ ?_
    · rintro arc' harc'
      rw [hcell] at harc'
      cases harc'
      exact hr
    · rintro arc' harc'
      cases harc'
      rw [hname]
      exact hr

theorem modify_balanced {arc : Arc T} (hcell : (w.kind.heap mem).cell a = some arc)
    (hb : Balanced e mem) (hname : w.name a x = w.name a arc.data)
    (hrefs : w.refs x = w.refs arc.data) (hparts : w.parts x = w.parts arc.data) :
    Balanced e (w.kind.store ((w.kind.heap mem).modify a fun _ ↦ x) mem) ∧
      estate (w.kind.store ((w.kind.heap mem).modify a fun _ ↦ x) mem) = estate mem := by
  have hmod :
      (w.kind.heap mem).modify a (fun _ ↦ x) = (w.kind.heap mem).put a (some ⟨arc.strong, x⟩) := by
    simp only [Heap.modify, hcell]
  have hrefs' := w.refsIn_put mem a (some ⟨arc.strong, x⟩)
  have hparts' := w.estate_put mem a (some ⟨arc.strong, x⟩)
  rw [hcell, Heap.share_some, Heap.share_some] at hrefs' hparts'
  rw [hrefs, add_left_inj, ← hmod] at hrefs'
  rw [hparts, add_left_inj, ← hmod] at hparts'
  exact ⟨hb.congr (w.cellOf_modify hcell hname) (by rw [hrefs']), hparts'⟩

/-- What giving up a reference leaves: the object and what it held, if it was the last one. -/
theorem release_balanced (hb : Balanced (e + {w.name a x}) mem) :
    Balanced (e + ((w.kind.heap mem).release a).1.elim 0 w.refs)
      (w.kind.store ((w.kind.heap mem).release a).2 mem) := by
  obtain ⟨n, y, hcell, hy⟩ := w.live_cell hb (a := a) (x := x) (by simp)
  rw [← hy] at hb
  have hcellOf := w.cellOf_of_cell hcell
  have hold :
      ∀ r, r ≠ w.name a y → ∀ arc, (w.kind.heap mem).cell a = some arc → r ≠ w.name a arc.data := by
    intro r hr arc harc
    rw [hcell] at harc
    cases harc
    exact hr
  cases n with
  | zero =>
    have hrel : (w.kind.heap mem).release a = (some y, (w.kind.heap mem).put a none) := by
      simp only [Heap.release, hcell, Nat.zero_add, le_refl, if_true]
    have hrefs := w.refsIn_put mem a none
    rw [hcell, Heap.share_some, Heap.share_none, add_zero] at hrefs
    rw [hrel, Option.elim_some]
    refine hb.down (r := w.name a y) hcellOf ?_
      (fun r hr ↦ w.cellOf_put_of_ne _ (hold r hr) nofun) ?_
    · rw [w.cellOf_put]
      rfl
    · rw [← hrefs]
      abel
  | succ n =>
    have hrel :
        (w.kind.heap mem).release a = (none, (w.kind.heap mem).put a (some ⟨n + 1, y⟩)) := by
      have hmany : ¬ n + 1 + 1 ≤ 1 := by omega
      simp only [Heap.release, hcell, hmany, if_false, Nat.add_sub_cancel]
    have hrefs := w.refsIn_put mem a (some ⟨n + 1, y⟩)
    rw [hcell, Heap.share_some, Heap.share_some, add_left_inj] at hrefs
    rw [hrel, Option.elim_none, add_zero]
    refine hb.down (r := w.name a y) hcellOf ?_ (fun r hr ↦ w.cellOf_put_of_ne _ (hold r hr) ?_) ?_
    · rw [w.cellOf_put, strongOf_some, if_pos (by simp)]
      rfl
    · rintro arc' harc'
      cases harc'
      exact hr
    · rw [hrefs]
      abel

theorem release_estate (mem : Memory) (a : ℕ) :
    estate (w.kind.store ((w.kind.heap mem).release a).2 mem) +
      ((w.kind.heap mem).release a).1.elim 0 w.parts = estate mem := by
  cases hcell : (w.kind.heap mem).cell a with
  | none =>
    have hrel : (w.kind.heap mem).release a = (none, w.kind.heap mem) := by
      simp only [Heap.release, hcell]
    rw [hrel, w.estate_eq, w.otherParts_store, w.kind.heap_store, ← w.estate_eq]
    exact add_zero _
  | some arc =>
    by_cases hlast : arc.strong ≤ 1
    · have hrel : (w.kind.heap mem).release a = (some arc.data, (w.kind.heap mem).put a none) := by
        simp only [Heap.release, hcell, hlast, if_true]
      have hparts := w.estate_put mem a none
      rw [hcell, Heap.share_some, Heap.share_none, add_zero] at hparts
      rw [hrel]
      exact hparts
    · have hrel : (w.kind.heap mem).release a =
          (none, (w.kind.heap mem).put a (some { arc with strong := arc.strong - 1 })) := by
        simp only [Heap.release, hcell, hlast, if_false]
      have hparts := w.estate_put mem a (some { arc with strong := arc.strong - 1 })
      rw [hcell, Heap.share_some, Heap.share_some, add_left_inj] at hparts
      rw [hrel]
      exact (add_zero _).trans hparts

end Owner

end HrxSystem.Libhrx
