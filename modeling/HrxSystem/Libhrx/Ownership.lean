import HrxSystem.Libhrx.References

namespace HrxSystem.Libhrx

open External Program Counting

/-- The fields of a device are released in their order, after the first `n` events. -/
def HrxDeviceS.DroppedIn (x : HrxDeviceS) (n : ℕ) (t : Trace) : Prop :=
  ∃ pre e₁ e₂ e₃ post, t = pre ++ e₁ :: e₂ :: e₃ :: post ∧ n ≤ pre.length ∧
    e₁.call = .allocatorRelease x.halAllocator ∧ e₂.call = .deviceGroupRelease x.halDeviceGroup ∧
    e₃.call = .halDeviceRelease x.halDevice

/-- What to keep an eye on: devices by their address, how much of the trace there was before, and
what every function satisfies. -/
structure Watch where
  devices : ℕ → Option HrxDeviceS
  since : ℕ
  known : ℕ → HrxFunctionS → Prop

/-- Each device is still there, or its fields were released. -/
def Watch.Kept (v : Watch) (t : Trace) (mem : Memory) : Prop :=
  ∀ a x, v.devices a = some x → (∃ k, mem.devices.cell a = some ⟨k, x⟩) ∨ x.DroppedIn v.since t

theorem HrxDeviceS.DroppedIn.snoc {x : HrxDeviceS} {n : ℕ} {t : Trace} (h : x.DroppedIn n t)
    (e : Happened) :
    x.DroppedIn n (t ++ [e]) := by
  obtain ⟨pre, e₁, e₂, e₃, post, rfl, hn, hcalls⟩ := h
  exact ⟨pre, e₁, e₂, e₃, post ++ [e], by simp, hn, hcalls⟩

/-- The references `e` are out, the statics satisfy `F`, and the devices of `v` are kept. -/
structure Owning (e : Multiset Ref) (F : Globals → Prop) (v : Watch) (t : Trace) (mem : Memory) :
    Prop where
  balanced : Balanced e mem
  globals : F mem.globals
  known : Known v.known mem
  since : v.since ≤ t.length
  kept : v.Kept t mem

theorem Owning.snoc {e : Multiset Ref} {F : Globals → Prop} {v : Watch} {t : Trace} {mem : Memory}
    (h : Owning e F v t mem) (x : Happened) : Owning e F v (t ++ [x]) mem := by
  refine ⟨h.balanced, h.globals, h.known, ?_, ?_⟩
  · rw [List.length_append]
    exact Nat.le_add_right_of_le h.since
  · intro d obj hd
    exact (h.kept d obj hd).imp_right fun hdropped ↦ hdropped.snoc x

def owning (e : Multiset Ref) (F : Globals → Prop) (v : Watch) : Standing Memory :=
  ⟨Owning e F v, fun _ x _ h ↦ h.snoc x⟩

def alive (r : Ref) (R : Standing Memory) : Standing Memory where
  holds t mem := (cellOf mem r).isSome ∧ R.holds t mem
  snoc _ _ _ h := ⟨h.1, R.snoc _ _ _ h.2⟩

/-- The books over the whole memory, with `h` in hand and the references `e` out. -/
abbrev Accounted (a b h : Multiset Res) (e : Multiset Ref) (F : Globals → Prop) (v : Watch) :
    Trace → Memory → Prop :=
  Booked estate a b h (owning e F v)

variable {a b h : Multiset Res} {e : Multiset Ref} {F : Globals → Prop} {v : Watch}
  {p : Outside → Prop}

theorem alive_of_out {r : Ref} {R : Standing Memory} {α : Type} {m : Hrx Memory α}
    {Q : α → Trace → Memory → Prop} (hr : r ∈ e) (hR : ∀ t mem, R.holds t mem → Balanced e mem)
    (hm : Triple p (Booked estate a b h (alive r R)) m Q) :
    Triple p (Booked estate a b h R) m Q := by
  refine booked_mono hm rfl fun t mem hA ↦ ⟨?_, hA⟩
  obtain ⟨n, hn⟩ := (hR t mem hA).live (r := r) (Multiset.mem_add.mpr (.inr hr))
  rw [hn]
  rfl

namespace Owner

variable {T : Type} (w : Owner T)

theorem alive_cell {mem : Memory} {x : ℕ} {obj : T} (h : (cellOf mem (w.name x obj)).isSome) :
    ∃ arc, (w.kind.heap mem).cell x = some arc ∧ w.name x arc.data = w.name x obj := by
  obtain ⟨n, hn⟩ := Option.isSome_iff_exists.mp h
  rw [w.cellOf_name] at hn
  obtain ⟨y, hcell, hy⟩ := strongOf_eq_some.mp hn
  exact ⟨⟨n, y⟩, hcell, by simpa using hy⟩

theorem owning_store {e' : Multiset Ref} {t : Trace} {mem : Memory} {hp : Heap T}
    (hO : Owning e F v t mem) (hb : Balanced e' (w.kind.store hp mem))
    (hnew : ∀ a arc, hp.cell a = some arc →
      w.known v.known a arc.data ∨ ∃ k, (w.kind.heap mem).cell a = some ⟨k, arc.data⟩)
    (hkept : (∀ mem hp, (w.kind.store hp mem).devices = mem.devices) ∨
      (w.kind.heap mem).Within hp) :
    Owning e' F v t (w.kind.store hp mem) := by
  refine ⟨hb, ?_, w.known_store _ _ _ hnew hO.known, hO.since, ?_⟩
  · rw [w.globals_store]
    exact hO.globals
  · intro d obj hd
    rcases hO.kept d obj hd with ⟨k, hcell⟩ | hdropped
    · refine .inl ?_
      rcases hkept with hdevices | hkept
      · exact ⟨k, by rw [hdevices, hcell]⟩
      · exact w.device_store mem hp hkept _ _ hcell
    · exact .inr hdropped

theorem handleRetain_accounted (x : ℕ) (obj : T) :
    Triple p (Booked estate a b h (alive (w.name x obj) (owning e F v))) (handleRetain w.kind x)
      (fun _ ↦ Accounted a b h (e + {w.name x obj}) F v) := by
  refine booked_update ?_
  rintro t mem ⟨hlive, hO⟩
  obtain ⟨arc, hcell, hname⟩ := w.alive_cell hlive
  obtain ⟨hb, hestate⟩ := w.retain_balanced hcell hO.balanced
  rw [← hname]
  refine ⟨w.owning_store hO hb (fun y arc hy ↦ .inr (Heap.retain_within _ x y arc hy))
    (.inr (Heap.within_retain _ x)), ?_⟩
  rw [hestate]

def handed (a b h : Multiset Res) (e : Multiset Ref) (F : Globals → Prop) (v : Watch) :
    Option T → Trace → Memory → Prop
  | none => Accounted a b h e F v
  | some obj => Accounted a b (w.parts obj + h) (e + w.refs obj) F v

/-- `handle_release` takes a reference back and hands out what its object held, if it was the last
one. -/
theorem handleRelease_accounted (hdevices : ∀ mem hp, (w.kind.store hp mem).devices = mem.devices)
    (x : ℕ) (obj : T) :
    Triple p (Accounted a b h (e + {w.name x obj}) F v) (handleRelease w.kind x)
      (w.handed a b h e F v) := by
  refine booked_state.bind fun mem ↦ ?_
  refine .bind (Q := fun _ ↦ w.handed a b h e F v ((w.kind.heap mem).release x).1) ?_ fun _ ↦
    .pure fun _ _ hA ↦ hA
  have hestate := w.release_estate mem x
  have hold : ∀ y arc, ((w.kind.heap mem).release x).2.cell y = some arc →
      w.known v.known y arc.data ∨ ∃ k, (w.kind.heap mem).cell y = some ⟨k, arc.data⟩ :=
    fun y arc hy ↦ .inr (Heap.release_within _ x y arc hy)
  cases hrel : ((w.kind.heap mem).release x).1 with
  | none =>
    refine booked_update ?_
    rintro t mem ⟨rfl, hO⟩
    have hb := w.release_balanced hO.balanced
    rw [hrel, Option.elim_none, add_zero] at hb hestate
    exact ⟨w.owning_store hO hb hold (.inl hdevices), by rw [hestate]⟩
  | some y =>
    refine booked_update ?_
    rintro t mem ⟨rfl, hO⟩
    have hb := w.release_balanced hO.balanced
    rw [hrel, Option.elim_some] at hb hestate
    refine ⟨w.owning_store hO hb hold (.inl hdevices), ?_⟩
    rw [← hestate]
    abel

/-- `into_handle` takes over what is in hand, at an address that nothing names. -/
theorem intoHandle_accounted (obj : T) (hknown : ∀ x, 0 < x → w.known v.known x obj) :
    Triple p (Accounted a b (w.parts obj + h) (e + w.refs obj) F v) (intoHandle w.kind obj)
      (fun x t mem ↦ (∀ y, w.name x y ∉ mem.globals.deviceRefs + e) ∧ 0 < x ∧
        Accounted a b h (e + {w.name x obj}) F v t mem) := by
  refine (booked_idle rfl).bind fun ev ↦ booked_state.bind fun mem ↦ ?_
  have hfresh := (w.kind.heap mem).fresh_cell ev.answer.value
  have hpos := (w.kind.heap mem).fresh_pos ev.answer.value
  refine .bind (Q := fun _ t mem' ↦ mem'.globals = mem.globals ∧
    (∀ y, w.name ((w.kind.heap mem).fresh ev.answer.value) y ∉ mem.globals.deviceRefs + e) ∧
      Accounted a b h (e + {w.name ((w.kind.heap mem).fresh ev.answer.value) obj}) F v t mem') ?_
      fun _ ↦ .pure ?_
  · refine .update ?_
    rintro t mem ⟨hentries, rfl, hO⟩
    obtain ⟨hb, hestate⟩ := w.new_balanced obj hfresh hO.balanced
    refine ⟨w.globals_store _ _, fun y hy ↦ ?_, ?_, ?_⟩
    · have hmem : w.name ((w.kind.heap mem).fresh ev.answer.value) y ∈
          refsIn mem + (e + w.refs obj) := by
        have hglobals : mem.globals.deviceRefs ≤ refsIn mem := by
          simp only [refsIn, add_assoc]
          exact Multiset.le_add_right _ _
        rcases Multiset.mem_add.mp hy with hy | hy
        · exact Multiset.mem_add.mpr (.inl (Multiset.mem_of_le hglobals hy))
        · exact Multiset.mem_add.mpr (.inr (Multiset.mem_add.mpr (.inl hy)))
      obtain ⟨n, z, hcell, -⟩ := w.live_cell hO.balanced hmem
      rw [hfresh] at hcell
      cases hcell
    · rw [Entries, hestate]
      rw [Entries] at hentries
      rw [hentries]
      abel
    · refine w.owning_store hO hb (fun y arc hy ↦ ?_) (.inr (Heap.within_put ?_))
      · by_cases hyx : y = (w.kind.heap mem).fresh ev.answer.value
        · subst hyx
          rw [Heap.put_cell_self] at hy
          obtain rfl := Option.some.inj hy
          exact .inl (hknown _ hpos)
        · rw [Heap.put_cell_of_ne _ _ hyx] at hy
          exact .inr ⟨arc.strong, hy⟩
      · rw [hfresh]
        intro _ h
        cases h
  · rintro t mem' ⟨hglobals, hnot, hA⟩
    rw [hglobals]
    exact ⟨hnot, hpos, hA⟩

end Owner

end HrxSystem.Libhrx
