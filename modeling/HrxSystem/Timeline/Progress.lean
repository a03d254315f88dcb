import HrxSystem.Timeline.InOrder
import Mathlib.Data.List.Induction
import Mathlib.Logic.Relation

namespace HrxSystem.Timeline

variable {S P E : Type} {free : S → Prop} {xs ys : List (Submission S P)} {x : Submission S P}
  {w : Point S}

/-- Point `w` needs nothing but the submissions `xs` and what others raise. -/
def Met (free : S → Prop) (xs : List (Submission S P)) (w : Point S) : Prop :=
  free w.semaphore ∨ w.value = 0 ∨ ∃ y ∈ xs, ∃ p ∈ y.signals, p.semaphore = w.semaphore ∧
    w.value ≤ p.value

/-- Each submission waits only for what the ones before it signal, and for others. -/
def Grounded (free : S → Prop) (xs : List (Submission S P)) : Prop :=
  ∀ ys x zs, xs = ys ++ x :: zs → ∀ w ∈ x.waits, Met free ys w

theorem Grounded.left (h : Grounded free (xs ++ ys)) : Grounded free xs := by
  intro us x zs hxs
  refine h us x (zs ++ ys) ?_
  rw [hxs, List.append_assoc, List.cons_append]

theorem Grounded.last (h : Grounded free (xs ++ [x])) (hw : w ∈ x.waits) : Met free xs w :=
  h xs x [] rfl w hw

variable [DecidableEq S]

/-- What a device does by itself, and what others do to its free semaphores. -/
inductive Moves (free : S → Prop) : Device S P → Device S P → Prop
  | start {d : Device S P} (x : Submission S P) :
      x ∈ d.accepted → (∀ w ∈ x.waits, d.Reached w) → Moves free d (d.start x)
  | finish {d : Device S P} (x : Submission S P) : x ∈ d.started → x ∉ d.done →
      Moves free d (d.finish x)
  | raise {d : Device S P} (p : Point S) : free p.semaphore → Moves free d (d.raise [p])

abbrev Works (free : S → Prop) : Device S P → Device S P → Prop :=
  Relation.ReflTransGen (Moves free)

variable {sub : E → Option (Submission S P)} {sees : E → Device S P → Prop}
variable {d₀ d d' : Device S P} {t : List E}

theorem Interleaves.works (h : Interleaves sub sees free d₀ t d) (hd : Works free d d') :
    Interleaves sub sees free d₀ t d' := by
  induction hd with
  | refl => exact h
  | tail _ hmove ih =>
    cases hmove with
    | start x hx hw => exact .start x ih hx hw
    | finish x hx hn => exact .finish x ih hx hn
    | raise p hp => exact .raise p ih hp

structure Device.Since (d d' : Device S P) : Prop where
  accepted : d'.accepted = d.accepted
  value : ∀ s, d.value s ≤ d'.value s
  done : d.done ⊆ d'.done

theorem Moves.since (h : Moves free d d') : d.Since d' := by
  cases h with
  | start x => exact ⟨rfl, fun _ ↦ le_rfl, Set.Subset.rfl⟩
  | finish x => exact ⟨rfl, d.value_le_raise x.signals, Set.subset_insert _ _⟩
  | raise p => exact ⟨rfl, d.value_le_raise [p], Set.Subset.rfl⟩

theorem Works.since (h : Works free d d') : d.Since d' := by
  induction h with
  | refl => exact ⟨rfl, fun _ ↦ le_rfl, Set.Subset.rfl⟩
  | tail _ hmove ih =>
    have hlast := hmove.since
    exact ⟨hlast.accepted.trans ih.accepted, fun s ↦ (ih.value s).trans (hlast.value s),
      ih.done.trans hlast.done⟩

theorem Works.raised (d : Device S P) (ps : List (Point S)) :
    ∃ d', Works free d d' ∧ ∀ p ∈ ps, free p.semaphore → d'.Reached p := by
  induction ps with
  | nil => exact ⟨d, .refl, by simp⟩
  | cons p ps ih =>
    obtain ⟨d', hworks, hreached⟩ := ih
    by_cases hp : free p.semaphore
    · refine ⟨d'.raise [p], hworks.tail (.raise p hp), ?_⟩
      intro q hq hfree
      obtain rfl | hq := List.mem_cons.mp hq
      · exact Device.reached_raise (List.mem_singleton_self _) d'
      · exact (hreached q hq hfree).trans (d'.value_le_raise [p] q.semaphore)
    · refine ⟨d', hworks, ?_⟩
      intro q hq hfree
      obtain rfl | hq := List.mem_cons.mp hq
      · exact absurd hfree hp
      · exact hreached q hq hfree

omit [DecidableEq S] in
theorem Met.reached (h : Met free xs w) (hd : d.Lawful) (hdone : ∀ x ∈ xs, x ∈ d.done)
    (hfree : free w.semaphore → d.Reached w) : d.Reached w := by
  obtain hf | hzero | ⟨y, hy, p, hp, hs, hle⟩ := h
  · exact hfree hf
  · rw [Device.Reached, hzero]
    exact Nat.zero_le _
  · have hreached := hd.signalled y (hdone y hy) p hp
    rw [Device.Reached, hs] at hreached
    exact hle.trans hreached

/-- A device can finish a submission whose waits are met by what is done. -/
theorem Interleaves.completes_one (h : Interleaves sub sees free d₀ t d) (h₀ : d₀.Idle)
    (hdone : ∀ y ∈ xs, y ∈ d.done) (hx : x ∈ d.accepted) (hmet : ∀ w ∈ x.waits, Met free xs w) :
    ∃ d', Works free d d' ∧ x ∈ d'.done := by
  by_cases hxd : x ∈ d.done
  · exact ⟨d, .refl, hxd⟩
  obtain ⟨d₁, hworks, hraised⟩ := @Works.raised _ _ free _ d x.waits
  have hsince := hworks.since
  have hlawful := (h.works hworks).lawful h₀
  have hreached : ∀ w ∈ x.waits, d₁.Reached w := fun w hw ↦
    (hmet w hw).reached hlawful (fun y hy ↦ hsince.done (hdone y hy)) (hraised w hw)
  have hstart : Works free d (d₁.start x) := hworks.tail (.start x (hsince.accepted ▸ hx) hreached)
  by_cases hx₁ : x ∈ d₁.done
  · exact ⟨d₁, hworks, hx₁⟩
  · exact ⟨_, hstart.tail (.finish x (Set.mem_insert x _) hx₁), Set.mem_insert x _⟩

/-- From wherever it is, a device can finish all that is grounded. -/
theorem Interleaves.completes (h : Interleaves sub sees free d₀ t d) (h₀ : d₀.Idle)
    (hxs : Grounded free xs) (hacc : ∀ x ∈ xs, x ∈ d.accepted) :
    ∃ d', Works free d d' ∧ ∀ x ∈ xs, x ∈ d'.done := by
  induction xs using List.reverseRecOn with
  | nil => exact ⟨d, .refl, by simp⟩
  | append_singleton xs x ih =>
    obtain ⟨d₁, hworks, hdone⟩ := ih hxs.left fun y hy ↦ hacc y (List.mem_append_left _ hy)
    have hx : x ∈ d₁.accepted := by
      rw [hworks.since.accepted]
      exact hacc x (by simp)
    obtain ⟨d₂, hworks', hxd⟩ := (h.works hworks).completes_one h₀ hdone hx fun w hw ↦ hxs.last hw
    refine ⟨d₂, hworks.trans hworks', ?_⟩
    intro y hy
    obtain hy | hy := List.mem_append.mp hy
    · exact hworks'.since.done (hdone y hy)
    · rwa [List.mem_singleton.mp hy]

omit [DecidableEq S] in
/-- A device on which others have raised all that is waited for always has something to do, until
all that is grounded is done. -/
theorem Device.Lawful.busy (hd : d.Lawful) (hxs : Grounded free xs)
    (hfree : ∀ x ∈ xs, ∀ w ∈ x.waits, free w.semaphore → d.Reached w) :
    (∀ x ∈ xs, x ∈ d.done) ∨ ∃ x ∈ xs, x ∉ d.done ∧ ∀ w ∈ x.waits, d.Reached w := by
  induction xs using List.reverseRecOn with
  | nil => exact .inl (by simp)
  | append_singleton xs x ih =>
    obtain hdone | ⟨y, hy, hn, hw⟩ := ih hxs.left fun y hy ↦ hfree y (List.mem_append_left _ hy)
    · by_cases hx : x ∈ d.done
      · refine .inl fun y hy ↦ ?_
        obtain hy | hy := List.mem_append.mp hy
        · exact hdone y hy
        · rwa [List.mem_singleton.mp hy]
      · exact .inr
          ⟨x, by simp, hx, fun w hw ↦ (hxs.last hw).reached hd hdone (hfree x (by simp) w hw)⟩
    · exact .inr ⟨y, List.mem_append_left _ hy, hn, hw⟩

end HrxSystem.Timeline
