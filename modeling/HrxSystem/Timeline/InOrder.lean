import HrxSystem.Timeline.Device

namespace HrxSystem.Timeline

variable {S P E : Type} [DecidableEq S] {s : S} {xs ys : List (Submission S P)}
  {x y : Submission S P}

def lane (s : S) (xs : List (Submission S P)) : List (Submission S P) :=
  xs.filter fun x ↦ x.signalsOn s

@[simp] theorem lane_append (s : S) (xs ys : List (Submission S P)) :
    lane s (xs ++ ys) = lane s xs ++ lane s ys := List.filter_append ..

theorem mem_lane : x ∈ lane s xs ↔ x ∈ xs ∧ x.signalsOn s = true := List.mem_filter

theorem signalsOn_of_signals {v : ℕ} (h : x.signals = [⟨s, v⟩]) : x.signalsOn s = true := by
  simp [Submission.signalsOn, h]

/-- The submissions on `s` signal the values 1, 2, 3, … in the order they were made. -/
def Numbered (s : S) (xs : List (Submission S P)) : Prop :=
  ∀ (i : ℕ) (x : Submission S P), (lane s xs)[i]? = some x → x.signals = [⟨s, i + 1⟩]

theorem Numbered.left (h : Numbered s (xs ++ ys)) : Numbered s xs := by
  intro i x hx
  refine h i x ?_
  obtain ⟨hlt, -⟩ := List.getElem?_eq_some_iff.mp hx
  rw [lane_append, List.getElem?_append_left hlt, hx]

theorem Numbered.mem (h : Numbered s xs) (hx : x ∈ xs) (hs : x.signalsOn s = true) :
    ∃ v, x.signals = [⟨s, v⟩] ∧ 0 < v ∧ v ≤ (lane s xs).length := by
  obtain ⟨i, hi⟩ := List.getElem?_of_mem (mem_lane.mpr ⟨hx, hs⟩)
  obtain ⟨hlt, -⟩ := List.getElem?_eq_some_iff.mp hi
  exact ⟨i + 1, h i x hi, Nat.succ_pos i, hlt⟩

theorem Numbered.unique {v : ℕ} (h : Numbered s xs) (hx : x ∈ xs) (hy : y ∈ xs)
    (hxs : x.signals = [⟨s, v⟩]) (hys : y.signals = [⟨s, v⟩]) : x = y := by
  obtain ⟨i, hi⟩ := List.getElem?_of_mem (mem_lane.mpr ⟨hx, signalsOn_of_signals hxs⟩)
  obtain ⟨j, hj⟩ := List.getElem?_of_mem (mem_lane.mpr ⟨hy, signalsOn_of_signals hys⟩)
  have hiv := h i x hi
  have hjv := h j y hj
  rw [hxs] at hiv
  rw [hys] at hjv
  obtain rfl : i = j := by
    simp only [List.cons.injEq, Point.mk.injEq, true_and, and_true] at hiv hjv
    omega
  exact Option.some.inj (hi.symm.trans hj)

theorem Numbered.last {v : ℕ} (h : Numbered s (xs ++ [x])) (hx : x.signals = [⟨s, v⟩]) :
    v = (lane s xs).length + 1 := by
  have hlast : (lane s (xs ++ [x]))[(lane s xs).length]? = some x := by
    rw [lane_append, List.getElem?_append_right le_rfl]
    simp [lane, signalsOn_of_signals hx]
  have hv := h _ x hlast
  rw [hx] at hv
  simpa using hv

/-- Submission `x`, which signals value `v` of semaphore `s`, ends after the values before
`v`: they are reached, or it waits for them. -/
def Follows (s : S) (d : Device S P) (x : Submission S P) (v : ℕ) : Prop :=
  v ≤ d.value s + 1 ∨ ∃ w ∈ x.waits, w.semaphore = s ∧ v ≤ w.value + 1

omit [DecidableEq S] in
theorem Follows.mono {d d' : Device S P} {v : ℕ} (h : Follows s d x v)
    (hle : d.value s ≤ d'.value s) :
    Follows s d' x v := h.imp_left fun hv ↦ hv.trans (Nat.succ_le_succ hle)

variable {sub : E → Option (Submission S P)} {sees : E → Device S P → Prop} {free : S → Prop}
variable {d₀ d : Device S P} {t : List E}

theorem Numbered.signals_cases (h : Numbered s xs) (hx : x ∈ xs) :
    (∃ v, x.signals = [⟨s, v⟩] ∧ 0 < v ∧ v ≤ (lane s xs).length) ∨ ∀ p ∈ x.signals,
      p.semaphore ≠ s := by
  cases hs : x.signalsOn s with
  | true => exact .inl (h.mem hx hs)
  | false => exact .inr (by simpa [Submission.signalsOn] using hs)

/-- A semaphore that only its lane signals is never ahead of the lane. -/
theorem Interleaves.value_le_lane (h : Interleaves sub sees free d₀ t d) (h₀ : d₀.Idle)
    (hzero : d₀.value s = 0) (hfree : ¬ free s) (hnum : Numbered s (t.filterMap sub)) :
    d.value s ≤ (lane s (t.filterMap sub)).length := by
  induction h with
  | boot => simp [hzero]
  | event e _ _ ih =>
    rw [List.filterMap_append] at hnum ⊢
    have hle := ih hnum.left
    rw [lane_append, List.length_append]
    exact hle.trans (Nat.le_add_right _ _)
  | start x _ _ _ ih => exact ih hnum
  | @finish t d x h hx _ ih =>
    have hacc : x ∈ t.filterMap sub := by
      rw [← h.accepted h₀]
      exact (h.lawful h₀).accepted hx
    obtain ⟨v, hv, -, hle⟩ | hne := hnum.signals_cases hacc
    · change (d.raise x.signals).value s ≤ _
      have hraise := d.raise_value_single ⟨s, v⟩
      simp only at hraise
      rw [hv, hraise]
      exact max_le (ih hnum) hle
    · change (d.raise x.signals).value s ≤ _
      rw [Device.raise_value_of_ne hne]
      exact ih hnum
  | @raise t d p _ hp ih =>
    rw [Device.raise_value_of_ne]
    · exact ih hnum
    · rintro q hq rfl
      rw [List.mem_singleton.mp hq] at hfree
      exact hfree hp

/-- A lane whose submissions all follow the ones before them is finished in order: a
submission is done exactly when its value is reached. -/
theorem Interleaves.done_iff (h : Interleaves sub sees free d₀ t d) (h₀ : d₀.Idle)
    (hzero : d₀.value s = 0) (hfree : ¬ free s) (hnum : Numbered s (t.filterMap sub))
    (hfollows : ∀ e ∈ t, ∀ d x v, sees e d → sub e = some x → x.signals = [⟨s, v⟩] →
      Follows s d x v) :
    ∀ x ∈ d.accepted, ∀ v, x.signals = [⟨s, v⟩] → Follows s d x v ∧
      (x ∈ d.done ↔ v ≤ d.value s) := by
  induction h with
  | boot => simp [h₀.accepted]
  | @event t d e h he ih =>
    rw [List.filterMap_append] at hnum
    have hle := h.value_le_lane h₀ hzero hfree hnum.left
    intro x hx v hv
    obtain hx | hx := List.mem_append.mp hx
    · exact ih hnum.left (fun f hf ↦ hfollows f (List.mem_append_left _ hf)) x hx v hv
    · have hsub : sub e = some x := Option.mem_toList.mp hx
      have hnext : v = (lane s (t.filterMap sub)).length + 1 := by
        refine Numbered.last ?_ hv
        simpa [hsub] using hnum
      refine ⟨(hfollows e (by simp) d x v he hsub hv).mono le_rfl, ?_⟩
      constructor
      · intro hdone
        have hreached := (h.lawful h₀).signalled x hdone ⟨s, v⟩ (by simp [hv])
        exact hreached
      · intro hle'
        change v ≤ d.value s at hle'
        omega
  | start y _ _ _ ih => exact ih hnum hfollows
  | @finish t d y h hy hn ih =>
    have hacc : y ∈ d.accepted := (h.lawful h₀).accepted hy
    have hnum' : Numbered s d.accepted := by rwa [h.accepted h₀]
    intro x hx v hv
    obtain ⟨hfollow, hdone⟩ := ih hnum hfollows x hx v hv
    refine ⟨hfollow.mono (d.value_le_raise _ s), ?_⟩
    change x ∈ insert y d.done ↔ v ≤ (d.raise y.signals).value s
    obtain ⟨u, hu, -, -⟩ | hne := hnum'.signals_cases hacc
    · -- The values before `u` are reached, for `y` has started and follows them.
      obtain ⟨hyfollow, hydone⟩ := ih hnum hfollows y hacc u hu
      have hbefore : u ≤ d.value s + 1 := by
        obtain hle | ⟨w, hw, rfl, hle⟩ := hyfollow
        · exact hle
        · have hreached : w.value ≤ d.value w.semaphore := (h.lawful h₀).waited y hy w hw
          omega
      have hafter : d.value s < u := Nat.lt_of_not_le (hydone.not.mp hn)
      have hraise := d.raise_value_single ⟨s, u⟩
      simp only at hraise
      rw [hu, hraise, Set.mem_insert_iff, hdone]
      constructor
      · rintro (rfl | hle)
        · rw [hv] at hu
          cases hu
          exact le_max_right _ _
        · exact hle.trans (le_max_left _ _)
      · intro hle
        by_cases hvu : v = u
        · exact .inl (hnum'.unique hx hacc hv (hvu ▸ hu))
        · refine .inr ?_
          rw [max_eq_right hafter.le] at hle
          omega
    · rw [Device.raise_value_of_ne hne, Set.mem_insert_iff, hdone]
      constructor
      · rintro (rfl | hle)
        · exact absurd rfl (hne ⟨s, v⟩ (by simp [hv]))
        · exact hle
      · exact .inr
  | @raise t d p _ hp ih =>
    intro x hx v hv
    obtain ⟨hfollow, hdone⟩ := ih hnum hfollows x hx v hv
    have hsame : (d.raise [p]).value s = d.value s := by
      refine Device.raise_value_of_ne ?_ d
      rintro q hq rfl
      rw [List.mem_singleton.mp hq] at hfree
      exact hfree hp
    refine ⟨hfollow.mono hsame.ge, ?_⟩
    rw [hsame]
    exact hdone

end HrxSystem.Timeline
