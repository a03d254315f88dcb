import HrxSystem.Threads.Pool
import Mathlib.Data.Multiset.Bind
import Mathlib.Data.Finset.Dedup
import Mathlib.Data.Fintype.EquivFin

namespace HrxSystem.Threads

open Function

variable {A B K V R κ α β : Type}

/-- A program on blocks of memory. It does not expect to come to `stuck`. -/
inductive Blocks (A V α : Type) : Type
  | done (a : α)
  | alloc (v : V) (k : A → Blocks A V α)
  | read (p : A) (k : V → Blocks A V α)
  | modify (p : A) (f : V → V) (k : Blocks A V α)
  | free (p : A) (k : Blocks A V α)
  | stuck

namespace Blocks

def bind : Blocks A V α → (α → Blocks A V β) → Blocks A V β
  | done a, w => w a
  | alloc v k, w => alloc v fun p ↦ (k p).bind w
  | read p k, w => read p fun v ↦ (k v).bind w
  | modify p f k, w => modify p f (k.bind w)
  | free p k, w => free p (k.bind w)
  | stuck, _ => stuck

/-- One step. A block that is not there cannot be read, changed or freed. -/
inductive Step [DecidableEq A] :
    (A → Option V) → Blocks A V α → (A → Option V) → Blocks A V α → Prop
  | alloc {cell : A → Option V} {p : A} {v : V} {k : A → Blocks A V α} : cell p = none →
      Step cell (.alloc v k) (update cell p (some v)) (k p)
  | read {cell : A → Option V} {p : A} {v : V} {k : V → Blocks A V α} : cell p = some v →
      Step cell (.read p k) cell (k v)
  | modify {cell : A → Option V} {p : A} {v : V} {f : V → V} {k : Blocks A V α} : cell p = some v →
      Step cell (.modify p f k) (update cell p (some (f v))) k
  | free {cell : A → Option V} {p : A} {v : V} {k : Blocks A V α} : cell p = some v →
      Step cell (.free p k) (update cell p none) k

/-- With the blocks `own` and no others the program comes to its end, and there `Q` holds of what it
has then. -/
inductive Within (Q : α → Multiset (A × V) → Prop) : Multiset (A × V) → Blocks A V α → Prop
  | done {own : Multiset (A × V)} {a : α} : Q a own → Within Q own (.done a)
  | alloc {own : Multiset (A × V)} {v : V}
      {k : A → Blocks A V α} : (∀ p, Within Q ((p, v) ::ₘ own) (k p)) →
      Within Q own (.alloc v k)
  | read {own : Multiset (A × V)} {p : A} {v : V} {k : V → Blocks A V α} : (p, v) ∈ own →
      Within Q own (k v) →
      Within Q own (.read p k)
  | modify {own rest : Multiset (A × V)} {p : A} {v : V} {f : V → V} {k : Blocks A V α} : own =
      (p, v) ::ₘ rest →
      Within Q ((p, f v) ::ₘ rest) k → Within Q own (.modify p f k)
  | free {own rest : Multiset (A × V)} {p : A} {v : V} {k : Blocks A V α} : own = (p, v) ::ₘ rest →
      Within Q rest k → Within Q own (.free p k)

variable {Q : α → Multiset (A × V) → Prop} {Q' : β → Multiset (A × V) → Prop}
variable {own rest : Multiset (A × V)} {w w' : Blocks A V α} {v : α → Blocks A V β}

theorem Within.bind (h : Within Q own w) (hv : ∀ a o, Q a o → Within Q' o (v a)) :
    Within Q' own (w.bind v) := by
  induction h with
  | done hQ => exact hv _ _ hQ
  | alloc _ ih => exact .alloc ih
  | read hmem _ ih => exact .read hmem ih
  | modify hown _ ih => exact .modify hown ih
  | free hown _ ih => exact .free hown ih

/-- Blocks that the program does not need stay as they are. -/
theorem Within.frame (h : Within Q own w) (rest : Multiset (A × V)) :
    Within (fun a o ↦ ∃ o', Q a o' ∧ o = o' + rest) (own + rest) w := by
  induction h with
  | done hQ => exact .done ⟨_, hQ, rfl⟩
  | alloc _ ih => exact .alloc fun p ↦ by simpa only [Multiset.cons_add] using ih p
  | read hmem _ ih => exact .read (Multiset.mem_add.mpr (.inl hmem)) ih
  | modify hown _ ih =>
    rw [hown, Multiset.cons_add]
    exact .modify rfl (by simpa only [Multiset.cons_add] using ih)
  | free hown _ ih =>
    rw [hown, Multiset.cons_add]
    exact .free rfl ih

theorem Within.beside (h : Within Q own w) (hv : ∀ a o, Q a o → Within Q' (o + rest) (v a)) :
    Within Q' (own + rest) (w.bind v) := by
  refine (h.frame rest).bind fun a o ho ↦ ?_
  obtain ⟨o', hQ, rfl⟩ := ho
  exact hv a o' hQ

end Blocks

/-- `own` are the blocks of a heap, each of them once. -/
structure Tiles (cell : A → Option V) (own : Multiset (A × V)) : Prop where
  once : (own.map Prod.fst).Nodup
  mem : ∀ p v, (p, v) ∈ own ↔ cell p = some v

namespace Tiles

variable {cell : A → Option V} {own rest : Multiset (A × V)} {p : A} {v : V}

theorem nothing : Tiles (fun _ : A ↦ (none : Option V)) 0 := ⟨Multiset.nodup_zero, by simp⟩

theorem notMem (h : Tiles cell own) (hp : cell p = none) : p ∉ own.map Prod.fst := by
  intro hmem
  obtain ⟨⟨q, v⟩, hv, rfl⟩ := Multiset.mem_map.mp hmem
  have hcell := (h.mem q v).mp hv
  rw [hp] at hcell
  cases hcell

theorem exists_fresh [Infinite A] (h : Tiles cell own) : ∃ p, cell p = none := by
  classical
  obtain ⟨p, hp⟩ := Infinite.exists_notMem_finset (own.map Prod.fst).toFinset
  refine ⟨p, Option.eq_none_iff_forall_ne_some.mpr fun v hv ↦ hp ?_⟩
  rw [Multiset.mem_toFinset, Multiset.mem_map]
  exact ⟨(p, v), (h.mem p v).mpr hv, rfl⟩

variable [DecidableEq A]

theorem alloc (h : Tiles cell own) (hp : cell p = none) (v : V) :
    Tiles (update cell p (some v)) ((p, v) ::ₘ own) := by
  refine ⟨?_, fun q u ↦ ?_⟩
  · rw [Multiset.map_cons, Multiset.nodup_cons]
    exact ⟨h.notMem hp, h.once⟩
  · rw [Multiset.mem_cons, h.mem]
    by_cases hq : q = p
    · subst hq
      simp [hp, eq_comm]
    · simp [hq]

theorem free (h : Tiles cell ((p, v) ::ₘ own)) : Tiles (update cell p none) own := by
  have honce := h.once
  rw [Multiset.map_cons, Multiset.nodup_cons] at honce
  refine ⟨honce.2, fun q u ↦ ?_⟩
  by_cases hq : q = p
  · subst hq
    rw [update_self]
    exact iff_of_false (fun hu ↦ honce.1 (Multiset.mem_map.mpr ⟨_, hu, rfl⟩))
      (Option.some_ne_none u).symm
  · rw [update_of_ne hq, ← h.mem, Multiset.mem_cons, or_iff_right]
    exact fun heq ↦ hq (congrArg Prod.fst heq)

theorem modify (h : Tiles cell ((p, v) ::ₘ own)) (u : V) :
    Tiles (update cell p (some u)) ((p, u) ::ₘ own) := by
  simpa using h.free.alloc (update_self ..) u

end Tiles

namespace Blocks

variable {Q : α → Multiset (A × V) → Prop} {own rest : Multiset (A × V)} {w w' : Blocks A V α}
  {cell cell' : A → Option V}
variable [DecidableEq A]

theorem Within.step (h : Within Q own w) (ht : Tiles cell (own + rest))
    (hs : Step cell w cell' w') :
    ∃ own', Within Q own' w' ∧ Tiles cell' (own' + rest) := by
  cases hs with
  | alloc hp =>
    cases h with
    | alloc hk => exact ⟨_, hk _, by simpa only [Multiset.cons_add] using ht.alloc hp _⟩
  | read hp =>
    cases h with
    | read hmem hk =>
      rw [(ht.mem ..).mp (Multiset.mem_add.mpr (.inl hmem))] at hp
      obtain rfl := Option.some.inj hp
      exact ⟨own, hk, ht⟩
  | modify hp =>
    cases h with
    | modify hown hk =>
      rw [hown, Multiset.cons_add] at ht
      rw [(ht.mem ..).mp (Multiset.mem_cons_self ..)] at hp
      obtain rfl := Option.some.inj hp
      exact ⟨_, hk, by simpa only [Multiset.cons_add] using ht.modify _⟩
  | free hp =>
    cases h with
    | free hown hk =>
      rw [hown, Multiset.cons_add] at ht
      exact ⟨_, hk, ht.free⟩

end Blocks

def Apart (f : K → Multiset B → Prop) (xs : Multiset K) (own : Multiset B) : Prop :=
  ∃ ps, Multiset.Rel f xs ps ∧ ps.sum = own

namespace Apart

variable {f : K → Multiset B → Prop} {xs ys : Multiset K} {own : Multiset B} {x : K}

@[simp] theorem zero_iff :
    Apart f 0 own ↔ own = 0 := by simp [Apart, Multiset.rel_zero_left, eq_comm]

@[simp] theorem singleton_iff : Apart f {x} own ↔ f x own := by
  constructor
  · rintro ⟨ps, hrel, rfl⟩
    obtain ⟨o, os, hx, hos, rfl⟩ := Multiset.rel_cons_left.mp hrel
    obtain rfl := Multiset.rel_zero_left.mp hos
    simpa using hx
  · intro hx
    exact ⟨{own}, .cons hx .zero, by simp⟩

theorem add_iff : Apart f (xs + ys) own ↔ ∃ o o', Apart f xs o ∧ Apart f ys o' ∧ own = o + o' := by
  constructor
  · rintro ⟨ps, hrel, rfl⟩
    obtain ⟨os, os', hxs, hys, rfl⟩ := Multiset.rel_add_left.mp hrel
    exact ⟨_, _, ⟨os, hxs, rfl⟩, ⟨os', hys, rfl⟩, Multiset.sum_add ..⟩
  · rintro ⟨_, _, ⟨os, hxs, rfl⟩, ⟨os', hys, rfl⟩, rfl⟩
    exact ⟨os + os', hxs.add hys, Multiset.sum_add ..⟩

theorem map_iff {L : Type} {g : L → K} {zs : Multiset L} :
    Apart f (zs.map g) own ↔ Apart (fun z ↦ f (g z)) zs own := by
  simp only [Apart, Multiset.rel_map_left]

theorem cons_iff : Apart f (x ::ₘ xs) own ↔ ∃ o o', f x o ∧ Apart f xs o' ∧ own = o + o' := by
  rw [← Multiset.singleton_add, add_iff]
  simp only [singleton_iff]

end Apart

/-- Calls on blocks: what each needs, what it does and what it leaves, and what is known of its
result. -/
structure Contract (A V R κ α : Type) where
  blocks : R → Multiset (A × V) → Prop
  needs : κ → Multiset R
  body : κ → Blocks A V α
  gives : κ → α → Multiset R
  tells : κ → α → Prop
  sound : ∀ c own, Apart blocks (needs c) own →
    (body c).Within (fun a o ↦ tells c a ∧ Apart blocks (gives c a) o) own

/-- Something that is held until a thread needs it, or a thread in a call. -/
inductive Party (A V R κ α : Type) : Type
  | held (r : R)
  | busy (c : κ) (w : Blocks A V α)

namespace Contract

variable (H : Contract A V R κ α)

def Fits : Party A V R κ α → Multiset (A × V) → Prop
  | .held r, own => H.blocks r own
  | .busy c w, own => w.Within (fun a o ↦ H.tells c a ∧ Apart H.blocks (H.gives c a) o) own

/-- Threads make calls with whatever is held, and take turns in any order. -/
inductive Next [DecidableEq A] : Rule (κ × α) (A → Option V) (Party A V R κ α)
  | enter {cell : A → Option V} (c : κ) :
    Next cell ((H.needs c).map .held) [] cell {.busy c (H.body c)}
  | step {cell cell' : A → Option V} {c : κ} {w w' : Blocks A V α} : w.Step cell cell' w' →
      Next cell {.busy c w} [] cell' {.busy c w'}
  | leave {cell : A → Option V} {c : κ} {a : α} : Next cell {.busy c (.done a)} [(c, a)] cell
      ((H.gives c a).map .held)

/-- The heap is shared out among the parties, and what calls told is right. -/
structure Inv (ls : List (κ × α)) (cell : A → Option V) (locals : Multiset (Party A V R κ α)) :
    Prop where
  shared : ∃ own, Apart H.Fits locals own ∧ Tiles cell own
  told : ∀ x ∈ ls, H.tells x.1 x.2

variable {H} {ls ms : List (κ × α)} {cell cell' : A → Option V}
  {xs ys others : Multiset (Party A V R κ α)}

theorem Inv.held {r : R} (h : H.Inv ls cell xs) (hr : .held r ∈ xs) :
    ∃ own, H.blocks r own ∧ ∀ p v, (p, v) ∈ own → cell p = some v := by
  obtain ⟨⟨own, hshared, htiles⟩, -⟩ := h
  obtain ⟨rest, rfl⟩ := Multiset.exists_cons_of_mem hr
  obtain ⟨o, o', ho, -, rfl⟩ := Apart.cons_iff.mp hshared
  exact ⟨o, ho, fun p v hv ↦ (htiles.mem p v).mp (Multiset.mem_add.mpr (.inl hv))⟩

theorem Inv.nothing (h : H.Inv ls cell 0) (p : A) : cell p = none := by
  obtain ⟨⟨own, hshared, htiles⟩, -⟩ := h
  obtain rfl := Apart.zero_iff.mp hshared
  refine Option.eq_none_iff_forall_ne_some.mpr fun v hv ↦ ?_
  exact Multiset.notMem_zero _ ((htiles.mem p v).mpr hv)

variable [DecidableEq A]

theorem Inv.next (h : H.Inv ls cell (xs + others)) (hnext : H.Next cell xs ms cell' ys) :
    H.Inv (ls ++ ms) cell' (ys + others) := by
  obtain ⟨⟨own, hshared, htiles⟩, htold⟩ := h
  obtain ⟨o, o', hxs, hothers, rfl⟩ := Apart.add_iff.mp hshared
  cases hnext with
  | enter c =>
    refine ⟨⟨o + o', Apart.add_iff.mpr ⟨o, o', ?_, hothers, rfl⟩, htiles⟩, by simpa using htold⟩
    exact Apart.singleton_iff.mpr (H.sound c o ((Apart.map_iff (f := H.Fits) (g := .held)).mp hxs))
  | step hstep =>
    obtain ⟨o'', hwithin, htiles'⟩ := (Apart.singleton_iff.mp hxs).step htiles hstep
    refine ⟨⟨o'' + o', Apart.add_iff.mpr ⟨o'', o', ?_, hothers, rfl⟩,
      htiles'⟩, by simpa using htold⟩
    exact Apart.singleton_iff.mpr hwithin
  | @leave _ c a =>
    cases Apart.singleton_iff.mp hxs with
    | done hQ =>
      refine ⟨⟨o + o', Apart.add_iff.mpr ⟨o, o', Apart.map_iff.mpr hQ.2, hothers, rfl⟩, htiles⟩,
        fun x hx ↦ ?_⟩
      obtain hx | hx := List.mem_append.mp hx
      · exact htold x hx
      · obtain rfl := List.mem_singleton.mp hx
        exact hQ.1

theorem Inv.of_run {q : Pool (A → Option V) (Party A V R κ α)}
    (h : Pool.Run H.Next ⟨fun _ ↦ none, 0⟩ ls q) :
    H.Inv ls q.shared q.locals :=
  h.keeps (I := fun ls q ↦ H.Inv ls q.shared q.locals)
    ⟨⟨0, Apart.zero_iff.mpr rfl, .nothing⟩, by simp⟩
    fun _ _ _ _ _ _ _ hnext hinv ↦ hinv.next hnext

section Runs

variable {p : Pool (A → Option V) (Party A V R κ α)} {c : κ} {w w' : Blocks A V α}

theorem run_enter (c : κ) (hrun : Pool.Run H.Next p ls ⟨cell, (H.needs c).map .held + others⟩) :
    Pool.Run H.Next p ls ⟨cell, {.busy c (H.body c)} + others⟩ := by
  simpa using hrun.step others (.enter c)

theorem run_step (hrun : Pool.Run H.Next p ls ⟨cell, {.busy c w} + others⟩)
    (hs : w.Step cell cell' w') :
    Pool.Run H.Next p ls ⟨cell', {.busy c w'} + others⟩ := by
  simpa using hrun.step others (.step hs)

theorem run_leave {a : α} (hrun : Pool.Run H.Next p ls ⟨cell, {.busy c (.done a)} + others⟩) :
    Pool.Run H.Next p (ls ++ [(c, a)]) ⟨cell, (H.gives c a).map .held + others⟩ :=
  hrun.step others .leave

theorem Inv.returns [Infinite A] (h : H.Inv ms cell ({.busy c w} + others))
    (hrun : Pool.Run H.Next p ls ⟨cell, {.busy c w} + others⟩) :
    ∃ a cell', Pool.Run H.Next p (ls ++ [(c, a)]) ⟨cell', (H.gives c a).map .held + others⟩ := by
  obtain ⟨⟨own, hshared, htiles⟩, -⟩ := h
  obtain ⟨o, o', ho, -, rfl⟩ := Apart.add_iff.mp hshared
  have hwithin : w.Within (fun a o ↦ H.tells c a ∧ Apart H.blocks (H.gives c a) o) o :=
    Apart.singleton_iff.mp ho
  clear ho hshared
  induction hwithin generalizing cell with
  | done => exact ⟨_, cell, run_leave hrun⟩
  | alloc _ ih =>
    obtain ⟨q, hq⟩ := htiles.exists_fresh
    exact ih q (run_step hrun (.alloc hq))
      (by simpa only [Multiset.cons_add] using htiles.alloc hq _)
  | read hmem _ ih =>
    exact ih (run_step hrun (.read ((htiles.mem ..).mp (Multiset.mem_add.mpr (.inl hmem))))) htiles
  | modify hown _ ih =>
    rw [hown, Multiset.cons_add] at htiles
    refine ih (run_step hrun (.modify ((htiles.mem ..).mp (Multiset.mem_cons_self ..)))) ?_
    simpa only [Multiset.cons_add] using htiles.modify _
  | free hown _ ih =>
    rw [hown, Multiset.cons_add] at htiles
    exact ih (run_step hrun (.free ((htiles.mem ..).mp (Multiset.mem_cons_self ..)))) htiles.free

end Runs

end Contract

end HrxSystem.Threads
