import HrxSystem.Timeline.InOrder

namespace HrxSystem.Timeline

variable {S P E : Type} {s : S} {p : Point S} {v : ℕ} {x y : Submission S P}

/-- Submission `x` does not start before `p` is reached, given that value `v` of `s` is not. -/
def Covers (s : S) (p : Point S) (v : ℕ) (d : Device S P) (x : Submission S P) : Prop :=
  d.Reached p ∨ ∃ w ∈ x.waits, w.semaphore = s ∧ v ≤ w.value ∨ w.semaphore = p.semaphore ∧
    p.value ≤ w.value

theorem Covers.mono {d d' : Device S P} (h : Covers s p v d x) (hle : ∀ s, d.value s ≤ d'.value s) :
    Covers s p v d' x := h.imp_left fun hp ↦ hp.trans (hle _)

theorem Covers.reached {d : Device S P} (h : Covers s p v d x) (hwaits : ∀ w ∈ x.waits, d.Reached w)
    (hv : v ≤ d.value s → d.Reached p) : d.Reached p := by
  obtain hp | ⟨w, hw, ⟨rfl, hle⟩ | ⟨hs, hle⟩⟩ := h
  · exact hp
  · exact hv (hle.trans (hwaits w hw))
  · have hreached := hwaits w hw
    rw [Device.Reached, hs] at hreached
    exact hle.trans hreached

variable [DecidableEq S]
variable {sub : E → Option (Submission S P)} {sees : E → Device S P → Prop} {free : S → Prop}
variable {d₀ d : Device S P} {t : List E}

/-- Value `v` of `s` stands for `p` having been reached, and so does the start of everything
that signals `v` or a later value. -/
structure Carries (s : S) (p : Point S) (v : ℕ) (d : Device S P) : Prop where
  reached : v ≤ d.value s → d.Reached p
  covered : ∀ x ∈ d.accepted, ∀ u, x.signals = [⟨s, u⟩] → v ≤ u → Covers s p v d x

omit [DecidableEq S] in
theorem Carries.awaited {u : ℕ} (h : Carries s p v d) (hd : d.Lawful) (hx : x ∈ d.started)
    (hu : x.signals = [⟨s, u⟩]) (hv : v ≤ u) : d.Reached p :=
  (h.covered x (hd.accepted hx) u hu hv).reached (hd.waited x hx) h.reached

/-- A lane carries what submission `y` waits for if all its later submissions cover it. -/
theorem Interleaves.carries (h : Interleaves sub sees free d₀ t d) (h₀ : d₀.Idle)
    (hzero : d₀.value s = 0) (hfree : ¬ free s) (hnum : Numbered s (t.filterMap sub)) (hv : 0 < v)
    (hp : p ∈ y.waits) (hy : ∀ x ∈ t.filterMap sub, x.signals = [⟨s, v⟩] → x = y)
    (hcovers : ∀ e ∈ t, ∀ d x u, sees e d → sub e = some x → x.signals = [⟨s, u⟩] → v < u →
      y ∈ d.accepted → Covers s p v d x) :
    Carries s p v d := by
  induction h with
  | boot => exact ⟨fun hle ↦ by omega, by simp [h₀.accepted]⟩
  | @event t d e h he ih =>
    rw [List.filterMap_append] at hnum hy
    have hold := ih hnum.left (fun x hx ↦ hy x (List.mem_append_left _ hx))
      (fun f hf ↦ hcovers f (List.mem_append_left _ hf))
    refine ⟨hold.reached, ?_⟩
    intro x hx u hu hle
    obtain hx | hx := List.mem_append.mp hx
    · exact hold.covered x hx u hu hle
    have hsub : sub e = some x := Option.mem_toList.mp hx
    have hcover : Covers s p v d x := by
      obtain rfl | hlt := hle.eq_or_lt
      · -- `x` is `y` itself.
        obtain rfl := hy x (by simp [hsub]) hu
        exact .inr ⟨p, hp, .inr ⟨rfl, le_rfl⟩⟩
      · refine hcovers e (by simp) d x u he hsub hu hlt ?_
        have hnext : u = (lane s (t.filterMap sub)).length + 1 := by
          refine Numbered.last ?_ hu
          simpa [hsub] using hnum
        obtain ⟨z, hz⟩ : ∃ z, (lane s (t.filterMap sub))[v - 1]? = some z :=
          ⟨_, List.getElem?_eq_getElem (by omega)⟩
        have hsignals := hnum.left _ z hz
        rw [Nat.sub_add_cancel hv] at hsignals
        have hmem := (mem_lane.mp (List.mem_of_getElem? hz)).1
        obtain rfl := hy z (List.mem_append_left _ hmem) hsignals
        rwa [h.accepted h₀]
    exact hcover.mono fun _ ↦ le_rfl
  | start x _ _ _ ih =>
    obtain ⟨hreached, hcovered⟩ := ih hnum hy hcovers
    exact ⟨hreached, hcovered⟩
  | @finish t d x h hx _ ih =>
    have hold := ih hnum hy hcovers
    have hlawful := h.lawful h₀
    have hvalue := d.value_le_raise x.signals
    refine ⟨?_, fun z hz u hu hle ↦ (hold.covered z hz u hu hle).mono hvalue⟩
    intro hle
    change v ≤ (d.raise x.signals).value s at hle
    refine (show d.Reached p from ?_).trans (hvalue _)
    have hacc : x ∈ t.filterMap sub := by
      rw [← h.accepted h₀]
      exact hlawful.accepted hx
    obtain ⟨u, hu, -, -⟩ | hne := hnum.signals_cases hacc
    · have hraise := d.raise_value_single ⟨s, u⟩
      simp only at hraise
      rw [hu, hraise] at hle
      obtain hle | hle : v ≤ d.value s ∨ v ≤ u := by omega
      · exact hold.reached hle
      · exact hold.awaited hlawful hx hu hle
    · rw [Device.raise_value_of_ne hne] at hle
      exact hold.reached hle
  | @raise t d q _ hq ih =>
    have hold := ih hnum hy hcovers
    have hvalue := d.value_le_raise [q]
    refine ⟨?_, fun z hz u hu hle ↦ (hold.covered z hz u hu hle).mono hvalue⟩
    intro hle
    rw [Device.raise_value_of_ne] at hle
    · exact (hold.reached hle).trans (hvalue _)
    · rintro r hr rfl
      rw [List.mem_singleton.mp hr] at hfree
      exact hfree hq

end HrxSystem.Timeline
