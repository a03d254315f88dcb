import HrxSystem.Libhrx.Runtime
import HrxSystem.Libhrx.StatusCodes
import HrxSystem.Text.CStrings

namespace HrxSystem.Libhrx

open External Program Counting Text

structure CallerMemory where
  mem : Memory
  byte : ℕ → UInt8

/-- What a property query does not survive: a handle of no device, and a read past the end of an
array. -/
inductive PropertyFault
  | danglingDevice
  | pastArray
deriving DecidableEq

def hrxDevicePropertyName : ℤ := 0
def hrxDevicePropertyArchitecture : ℤ := 1
def hrxDevicePropertyTotalMemory : ℤ := 2
def hrxDevicePropertyComputeUnits : ℤ := 3
def hrxDevicePropertyMaxWorkgroupSize : ℤ := 4

def cstrLen (buf : List UInt8) : ℕ := strnlen 0 buf

/-- `copy_nonoverlapping` of the first `count` bytes of an array to the caller. -/
def copyNonoverlapping (array : List UInt8) (value count : ℕ) :
    Hrx CallerMemory (Except PropertyFault Unit) := do
  if array.length < count then return .error .pastArray
  update fun c ↦ { c with byte := writeAt value (array.take count) c.byte }
  return .ok ()

def stringProperty (array : List UInt8) (tooSmall : String) (value valueSize : ℕ) :
    Hrx CallerMemory (Except PropertyFault HrxStatus) := do
  let len := cstrLen array
  if valueSize < len + 1 then return .ok (← hrxError .outOfRange tooSmall)
  match ← copyNonoverlapping array value (len + 1) with
  | .error fault => return .error fault
  | .ok _ => return .ok hrxOkStatus

def littleEndian (width x : ℕ) : List UInt8 := (List.range width).map fun i ↦ (x / 256 ^ i).toUInt8

def totalMemoryProperty (halDevice : Obj) (value valueSize : ℕ) :
    Hrx CallerMemory (Except PropertyFault HrxStatus) := do
  if valueSize < 8 then return .ok (← hrxError .outOfRange "buffer too small for uint64_t")
  let s ← call (.deviceQueryI64 halDevice)
  let memSize : ℤ := if ok s then s.answer.signed else 0
  update fun c ↦ { c with byte := writeAt value (littleEndian 8 (memSize % 2 ^ 64).toNat) c.byte }
  return .ok hrxOkStatus

/-- The properties that the local-task driver does not know. -/
def zeroProperty (value valueSize : ℕ) : Hrx CallerMemory (Except PropertyFault HrxStatus) := do
  if valueSize < 4 then return .ok (← hrxError .outOfRange "buffer too small for uint32_t")
  update fun c ↦ { c with byte := writeAt value (littleEndian 4 0) c.byte }
  return .ok hrxOkStatus

def hrxDeviceGetProperty (device : HrxDevice) (prop : ℤ) (value : Option ℕ) (valueSize : ℕ) :
    Hrx CallerMemory (Except PropertyFault HrxStatus) :=
  match device, value with
  | some d, some v => do
    let c ← state
    match c.mem.devices.cell d.addr with
    | none => return .error .danglingDevice
    | some dev =>
      if prop = hrxDevicePropertyName then
        stringProperty dev.data.name "buffer too small for device name" v valueSize
      else if prop = hrxDevicePropertyArchitecture then
        stringProperty dev.data.architecture "buffer too small for architecture string" v valueSize
      else if prop = hrxDevicePropertyTotalMemory
        then totalMemoryProperty dev.data.halDevice v valueSize
      else if prop = hrxDevicePropertyComputeUnits ∨ prop = hrxDevicePropertyMaxWorkgroupSize then
        zeroProperty v valueSize
      else return .ok (← hrxError .invalidArgument "unknown device property")
  | _, _ => return .ok (← hrxError .invalidArgument "device or value is NULL")

section Strings

variable {n : ℕ} (bytes : List UInt8)

theorem length_cstrArray (hn : 0 < n) : (cstrArray n bytes).length = n := by
  simp only [cstrArray, List.length_append, List.length_take, List.length_replicate]
  omega

theorem zero_mem_cstrArray (hn : 0 < n) : 0 ∈ cstrArray n bytes := by
  have hpad : n - (bytes.take (n - 1)).length ≠ 0 := by
    rw [List.length_take]
    omega
  exact List.mem_append_right _ (List.mem_replicate.mpr ⟨hpad, rfl⟩)

theorem takeWhile_cstrArray (n : ℕ) :
    ((cstrArray n bytes).takeWhile fun x ↦ x ≠ 0) = cString 0 n bytes :=
  takeWhile_stored n _ bytes

theorem cstrLen_cstrArray (n : ℕ) : cstrLen (cstrArray n bytes) = (cString 0 n bytes).length := by
  rw [cstrLen, strnlen_eq, takeWhile_cstrArray]

theorem take_cstrArray (hn : 0 < n) :
    (cstrArray n bytes).take ((cString 0 n bytes).length + 1) = cString 0 n bytes ++ [0] := by
  rw [← cstrLen_cstrArray, cstrLen, take_strnlen (zero_mem_cstrArray bytes hn), takeWhile_cstrArray]

theorem length_cString_lt (hn : 0 < n) : (cString 0 n bytes).length < n := by
  rw [← cstrLen_cstrArray]
  exact (strnlen_lt (zero_mem_cstrArray bytes hn)).trans_eq (length_cstrArray bytes hn)

end Strings

/-- A string property is told whole and terminated, or refused with the caller's memory as it
was. -/
structure StringTold (text : List UInt8) (tooSmall : String) (value valueSize : ℕ) (o : Outside)
    (n : ℕ) (c : CallerMemory)
    (r : Outcome Call Answer CallerMemory (Except PropertyFault HrxStatus)) :
    Prop where
  inside : ∃ status, r.val = .ok status
  bounded : ∀ a, a < value ∨ value + valueSize ≤ a → r.state.byte a = c.byte a
  refused : valueSize < text.length + 1 →
    r.val = .ok (made o n ⟨HrxStatusCode.outOfRange.toInt, some tooSmall⟩) ∧ r.state = c
  outOfRange : (∃ status, r.val = .ok status ∧
    hrxStatusCode status = HrxStatusCode.outOfRange.toInt) ↔
    valueSize < text.length + 1 ∧ ok (payload o n) = true
  told : text.length + 1 ≤ valueSize → r.val = .ok hrxOkStatus ∧ r.state.mem = c.mem ∧
    ∀ i (hi : i < (text ++ [0]).length), r.state.byte (value + i) = (text ++ [0])[i]

section StringProperty

variable {m : ℕ} (bytes : List UInt8) (tooSmall : String) (value valueSize : ℕ) (o : Outside)
  (n : ℕ) (c : CallerMemory)

theorem run_stringProperty_refused (h : valueSize < (cString 0 m bytes).length + 1) :
    (stringProperty (cstrArray m bytes) tooSmall value valueSize).run o n c =
      ⟨.ok (made o n ⟨HrxStatusCode.outOfRange.toInt, some tooSmall⟩), c, [payload o n]⟩ := by
  have hcode : HrxStatusCode.outOfRange ≠ .ok := by decide
  have herror := run_hrxError_made hcode tooSmall o n c
  simp [stringProperty, cstrLen_cstrArray, h, herror]

theorem run_stringProperty_told (hm : 0 < m) (h : (cString 0 m bytes).length + 1 ≤ valueSize) :
    (stringProperty (cstrArray m bytes) tooSmall value valueSize).run o n c =
      ⟨.ok hrxOkStatus, { c with byte := writeAt value (cString 0 m bytes ++ [0]) c.byte },
        []⟩ := by
  have hfits : ¬ valueSize < (cString 0 m bytes).length + 1 := not_lt.mpr h
  have hinside : ¬ (cstrArray m bytes).length < (cString 0 m bytes).length + 1 := by
    rw [length_cstrArray bytes hm]
    exact not_lt.mpr (length_cString_lt bytes hm)
  simp [stringProperty, copyNonoverlapping, cstrLen_cstrArray, hfits, hinside,
    take_cstrArray bytes hm]

theorem stringProperty_told (hm : 0 < m) :
    StringTold (cString 0 m bytes) tooSmall value valueSize o n c
      ((stringProperty (cstrArray m bytes) tooSmall value valueSize).run o n c) := by
  rcases Nat.lt_or_ge valueSize ((cString 0 m bytes).length + 1) with hsmall | hfits
  · rw [run_stringProperty_refused bytes tooSmall value valueSize o n c hsmall]
    refine ⟨⟨_, rfl⟩, fun _ _ ↦ rfl, fun _ ↦ ⟨rfl, rfl⟩, ?_,
      fun hfits ↦ absurd hsmall (not_lt.mpr hfits)⟩
    simp only [Except.ok.injEq, exists_eq_left', hsmall, true_and]
    unfold made
    split
    · next hroom => simp [hrxStatusCode, hroom]
    · next hfull => simp [hrxStatusCode, hfull, HrxStatusCode.toInt]
  · rw [run_stringProperty_told bytes tooSmall value valueSize o n c hm hfits]
    have hlarge : ¬ valueSize < (cString 0 m bytes).length + 1 := not_lt.mpr hfits
    refine ⟨⟨_, rfl⟩, fun a ha ↦ writeAt_outside c.byte ?_, fun hsmall ↦ absurd hsmall hlarge,
      ?_, fun _ ↦ ?_⟩
    · rw [List.length_append, List.length_singleton]
      omega
    · simp [hlarge, hrxStatusCode, hrxOkStatus, HrxStatusCode.toInt]
    · exact ⟨rfl, rfl, fun i hi ↦ writeAt_inside value c.byte hi⟩

end StringProperty

/-- The name and the architecture of a device are told as C reads them in the arrays that
`cstr_array` or `cstr_array_from_raw` filled. -/
theorem device_strings_told {c : CallerMemory} {d : DevicePtr} {dev : Arc HrxDeviceS}
    {name architecture : List UInt8} (hlive : c.mem.devices.cell d.addr = some dev)
    (hname : dev.data.name = cstrArray 128 name)
    (harchitecture : dev.data.architecture = cstrArray 64 architecture) (value valueSize : ℕ)
    (o : Outside) (n : ℕ) :
    StringTold (cString 0 128 name) "buffer too small for device name" value valueSize o n c
        ((hrxDeviceGetProperty (some d) hrxDevicePropertyName (some value) valueSize).run o n c) ∧
      StringTold (cString 0 64 architecture) "buffer too small for architecture string" value
        valueSize o n c
          ((hrxDeviceGetProperty (some d) hrxDevicePropertyArchitecture (some value) valueSize).run
          o n c) := by
  have hother : hrxDevicePropertyArchitecture ≠ hrxDevicePropertyName := by decide
  constructor
  · simp only [hrxDeviceGetProperty, run_bind, run_state, hlive, if_true, hname, Outcome.after_nil]
    exact stringProperty_told name _ value valueSize o _ c (by decide)
  · simp only [hrxDeviceGetProperty, run_bind, run_state, hlive, if_neg hother, if_true,
      harchitecture, Outcome.after_nil]
    exact stringProperty_told architecture _ value valueSize o _ c (by decide)

def cpuCaller : CallerMemory := ⟨(hrxCpuInitialize.run (fun _ _ ↦ {}) 0 .initial).state, fun _ ↦ 0⟩

def cpuArchitecture : Outcome Call Answer CallerMemory (Except PropertyFault HrxStatus) :=
  (hrxDeviceGetProperty (some ⟨1, 11, 0, 13⟩) hrxDevicePropertyArchitecture (some 4096) 5).run
    (fun _ _ ↦ {}) 0 cpuCaller

theorem device_strings_told_cpu :
    StringTold (cString 0 64 (ascii "host")) "buffer too small for architecture string" 4096 5
      (fun _ _ ↦ {}) 0 cpuCaller
        cpuArchitecture ∧
      (List.range 5).map (fun i ↦ cpuArchitecture.state.byte (4096 + i)) = ascii "host" ++ [0] := by
  have hlive : cpuCaller.mem.devices.cell 1 =
      some ⟨1, ⟨1, 0, 0, 13, 11, cstrArray 128 (ascii "CPU 0 (local-task)"),
        cstrArray 64 (ascii "host")⟩⟩ := rfl
  exact ⟨(device_strings_told (d := ⟨1, 11, 0, 13⟩) hlive rfl rfl 4096 5
    (fun _ _ ↦ {}) 0).2, by decide⟩

/-- With no room for the error status, a name that does not fit is refused with the NULL status,
which reads as OK. -/
theorem device_name_refused_as_ok :
    (cpuCaller.mem.devices.cell 1).map (fun dev ↦ dev.data.name) = some
      (cstrArray 128 (ascii "CPU 0 (local-task)")) ∧
      4 < (cString 0 128 (ascii "CPU 0 (local-task)")).length + 1 ∧
      ((hrxDeviceGetProperty (some ⟨1, 11, 0, 13⟩) hrxDevicePropertyName (some 4096) 4).run
        (fun _ _ ↦ { status := some ⟨8, none⟩ }) 0 cpuCaller).val = .ok hrxOkStatus ∧
      hrxStatusCode hrxOkStatus ≠ HrxStatusCode.outOfRange.toInt := by
  exact ⟨rfl, by decide, by decide, by decide⟩

end HrxSystem.Libhrx
