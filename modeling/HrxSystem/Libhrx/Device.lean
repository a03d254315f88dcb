import HrxSystem.Libhrx.Handle

namespace HrxSystem.Libhrx

open External Program Counting

def hrxDeviceRetain (device : ℕ) : Hrx Memory Unit := handleRetain .devices device

/-- The fields of `HrxDeviceS` in the order they are dropped. -/
def HrxDeviceS.drop (device : HrxDeviceS) : Hrx Memory Unit := do
  let _ ← call (.allocatorRelease device.halAllocator)
  let _ ← call (.deviceGroupRelease device.halDeviceGroup)
  let _ ← call (.halDeviceRelease device.halDevice)

def hrxDeviceRelease (device : ℕ) : Hrx Memory Unit := do
  match ← handleRelease .devices device with
  | none => return ()
  | some d => d.drop

theorem hrxDeviceRelease_calls {τ : Type} {f : Memory → τ} {P : Call → Prop}
    (hallocator : ∀ x, P (.allocatorRelease x)) (hgroup : ∀ x, P (.deviceGroupRelease x))
    (hdevice : ∀ x, P (.halDeviceRelease x)) (hf : ∀ mem h, f { mem with devices := h } = f mem)
    (device : ℕ) :
    Confined f P (hrxDeviceRelease device) := by
  have hrel : Confined f P (handleRelease .devices device) :=
    .bind .state fun _ ↦ .bind (.update fun _ ↦ hf _ _) fun _ ↦ .pure _
  refine hrel.bind fun d ↦ ?_
  cases d with
  | none => exact .pure _
  | some d =>
    exact .bind (.call (hallocator _)) fun _ ↦ .bind (.call (hgroup _)) fun _ ↦
      .bind (.call (hdevice _)) fun _ ↦ .pure _

end HrxSystem.Libhrx
