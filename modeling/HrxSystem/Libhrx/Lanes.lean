import HrxSystem.Libhrx.TimelineValues
import HrxSystem.Timeline.Carried

namespace HrxSystem.Libhrx

open External Program Counting HrxStreamS Timeline

/-- Submission `x` is number `i` on the timeline of semaphore `s`: it signals the next value and
waits for the one before, which a barrier does not. -/
structure InLane (s : Obj) (i : ℕ) (x : Submission Obj Work) : Prop where
  signals : x.signals = [⟨s, (i + 1) % 2 ^ 64⟩]
  waits : x.payload.job ≠ .barrier → x.waits = if i % 2 ^ 64 > 0 then [⟨s, i % 2 ^ 64⟩] else []

def Laned (s : Obj) (t : Trace) : Prop := ∀ i x, (lane s t)[i]? = some x → InLane s i x

variable {s : Obj} {t t' es : Trace} {n a : ℕ} {st st' : HrxStreamS} {mem mem₀ : Memory}
  {l : StreamLog}
variable {k : StreamCall} {o : Outside}

theorem InLane.numbered {i : ℕ} {x : Submission Obj Work} (h : InLane s i x) (hi : i + 1 < 2 ^ 64) :
    x.signals = [⟨s, i + 1⟩] ∧ (x.payload.job ≠ .barrier → 0 < i → ⟨s, i⟩ ∈ x.waits) := by
  obtain ⟨hsignals, hwaits⟩ := h
  rw [Nat.mod_eq_of_lt hi] at hsignals
  rw [Nat.mod_eq_of_lt (by omega)] at hwaits
  refine ⟨hsignals, fun hjob hpos ↦ ?_⟩
  rw [hwaits hjob, if_pos hpos]
  exact List.mem_singleton_self _

theorem Laned.of_prefix (h : Laned s t) (ht : t' <+: t) : Laned s t' := by
  obtain ⟨u, rfl⟩ := ht
  intro i x hx
  obtain ⟨hlt, -⟩ := List.getElem?_eq_some_iff.mp hx
  refine h i x ?_
  rw [lane_append, List.getElem?_append_left hlt, hx]

theorem Laned.snoc {x : Submission Obj Work} (h : Laned s t) (hes : lane s es = [x])
    (hx : InLane s (lane s t).length x) : Laned s (t ++ es) := by
  intro i y hy
  rw [lane_append, hes] at hy
  by_cases hi : i < (lane s t).length
  · rw [List.getElem?_append_left hi] at hy
    exact h i y hy
  · obtain ⟨hlt, -⟩ := List.getElem?_eq_some_iff.mp hy
    have hlen : (lane s t ++ [x]).length = (lane s t).length + 1 := by simp
    obtain rfl : i = (lane s t).length := by omega
    rw [List.getElem?_append_right le_rfl, Nat.sub_self, List.getElem?_cons_zero] at hy
    rwa [← Option.some.inj hy]

theorem lane_of_signalled (h : signalled s t = []) : lane s t = [] := by
  rw [lane, List.filter_eq_nil_iff]
  intro x hx hon
  rw [signalled, List.flatMap_eq_nil_iff] at h
  have hnone := h x hx
  rw [List.filterMap_eq_nil_iff] at hnone
  obtain ⟨p, hp, hps⟩ := List.any_eq_true.mp hon
  have hfalse := hnone p hp
  rw [if_pos (by simpa using hps)] at hfalse
  cases hfalse

theorem lane_le_signalled (s : Obj) (t : Trace) : (lane s t).length ≤ (signalled s t).length := by
  rw [lane, signalled]
  induction submissions t with
  | nil => exact le_rfl
  | cons x xs ih =>
    rw [List.flatMap_cons, List.length_append, List.filter_cons]
    split
    · rename_i hon
      obtain ⟨p, hp, hps⟩ := List.any_eq_true.mp hon
      have hmem :
          p.value ∈ x.signals.filterMap fun p ↦ if p.semaphore = s then some p.value else none :=
        List.mem_filterMap.mpr ⟨p, hp, if_pos (by simpa using hps)⟩
      have hpos := List.length_pos_of_mem hmem
      rw [List.length_cons]
      omega
    · exact ih.trans (Nat.le_add_left _ _)

/-- A small step goes on with the lane of its stream, unless an alloca is lost. -/
theorem Small.laned (h : Small n st es st') (hl : ¬ Lost es) (hs : st.semaphore.hal = s)
    (ht : Laned s t) (htp : st.timepoint = (lane s t).length % 2 ^ 64) :
    Laned s (t ++ es) ∧ st'.timepoint = (lane s (t ++ es)).length % 2 ^ 64 := by
  obtain ⟨hsub, htp'⟩ | ⟨x, hsub, hsig, hwaits, ⟨-, hlost⟩ | htp'⟩ := h.submits
  · have hnone : lane s es = [] := by rw [lane, hsub, List.filter_nil]
    rw [Laned, lane_append, hnone, List.append_nil, htp']
    exact ⟨ht, htp⟩
  · exact absurd hlost hl
  · have hnext : u64Add st.timepoint 1 = ((lane s t).length + 1) % 2 ^ 64 := by
      rw [u64Add, htp]
      omega
    have hone : lane s es = [x] := by
      rw [lane, hsub, List.filter_cons_of_pos, List.filter_nil]
      simp [Submission.signalsOn, hsig, signalList, hs]
    refine ⟨ht.snoc hone ⟨?_, ?_⟩, ?_⟩
    · rw [hsig, signalList, hs, hnext]
    · intro hjob
      obtain hwaits | hbarrier := hwaits
      · rw [hwaits, waitList, hs, htp]
      · exact absurd hbarrier hjob
    · rw [htp', hnext, lane_append, hone, List.length_append, List.length_singleton]

theorem Steps.laned (h : Steps n st es st') (hl : ¬ Lost es) (hs : st.semaphore.hal = s)
    (ht : Laned s t) (htp : st.timepoint = (lane s t).length % 2 ^ 64) :
    Laned s (t ++ es) ∧ st'.timepoint = (lane s (t ++ es)).length % 2 ^ 64 := by
  have hw := Chain.within (Q := fun es ↦ ¬ Lost es) (fun _ _ ↦ not_lost_append) h hl
  refine (Chain.keeps (I := fun _ t st ↦ st.semaphore.hal = s ∧ Laned s t ∧
    st.timepoint = (lane s t).length % 2 ^ 64) ?_ hw ⟨hs, ht, htp⟩).2
  rintro n t st es st' ⟨hsmall, hlost⟩ ⟨hs, ht, htp⟩
  exact ⟨by rw [hsmall.fixed.1, hs], hsmall.laned hlost hs ht htp⟩

theorem lane_leftover (o : Outside) (n : ℕ) (st : HrxStreamS) (s : Obj) :
    lane s (leftover o n st) = [] := by
  rw [lane, leftover_submissions]
  rfl

theorem Lives.laned {arc : Arc HrxStreamS} {cell' : Option (Arc HrxStreamS)}
    (h : Lives k n arc es cell') (hk : k.skips = false) (hl : ¬ Lost es)
    (hs : arc.data.semaphore.hal = s) (ht : Laned s t)
    (htp : arc.data.timepoint = (lane s t).length % 2 ^ 64) :
    Laned s (t ++ es) ∧
      ∀ arc', cell' = some arc' → arc'.data.timepoint = (lane s (t ++ es)).length % 2 ^ 64 := by
  cases h with
  | walked _ hsteps _ =>
    obtain ⟨hlaned, htp'⟩ := hsteps.laned hl hs ht htp
    refine ⟨hlaned, ?_⟩
    rintro arc' ⟨⟩
    exact htp'
  | skipped hskips _ =>
    rw [hk] at hskips
    cases hskips
  | @dropped strong st st' o es fs tail _ h _ _ hfs htail =>
    have hles : ¬ Lost es := (not_lost_append (not_lost_append (not_lost_append hl).1).1).1
    obtain ⟨hlaned, -⟩ := (steps_of_one h).laned hles hs ht htp
    refine ⟨?_, nofun⟩
    rw [Laned, lane_append, lane_append, lane_append, lane_append, lane_leftover, lane_of_quiet hfs,
      lane_of_quiet htail, List.append_nil, List.append_nil, List.append_nil, ← lane_append]
    exact hlaned

/-- The timeline of stream `a` on semaphore `s`, with its submissions in order. -/
structure LaneInv (a : ℕ) (s : Obj) (mem : Memory) (l : StreamLog) : Prop where
  timeline : TimelineInv a s mem l
  laned : Laned s (trace l)
  timepoint : ∀ arc, mem.streams.cell a = some arc → arc.data.semaphore.hal = s ∧
    arc.data.timepoint = (lane s (trace l)).length % 2 ^ 64

def KeepsLane (a : ℕ) (n : ℕ) (mem : Memory) (k : StreamCall) (o : Outside) : Prop :=
  Usual n mem k o ∧ (k.stream = some a → k.skips = false ∧ ¬ Lost (k.run.run o n mem).events)

theorem LaneInv.call (h : LaneInv a s mem l) (hk : KeepsLane a (trace l).length mem k o) :
    LaneInv a s (k.run.run o (trace l).length mem).state
      (l ++ [⟨mem, k, k.run.run o (trace l).length mem⟩]) := by
  obtain ⟨htimeline, hlaned, htp⟩ := h
  obtain ⟨hu, hown⟩ := hk
  have htrace : trace (l ++ [⟨mem, k, k.run.run o (trace l).length mem⟩]) =
      trace l ++ (k.run.run o (trace l).length mem).events := by simp
  by_cases hka : k.stream = some a
  · obtain ⟨hskips, hlost⟩ := hown hka
    obtain ⟨arc, harc⟩ := hu.1 a hka
    obtain ⟨hs, htp⟩ := htp arc harc
    obtain ⟨hlives, -⟩ := StreamCall.run_lives (n := (trace l).length) hu.2 hka harc
    obtain ⟨hlaned', htp'⟩ := hlives.laned hskips hlost hs hlaned htp
    refine ⟨htimeline.own ⟨hu, hlost⟩ hka, by rwa [htrace], fun arc' harc' ↦ ?_⟩
    rw [htrace]
    exact ⟨by rw [hlives.semaphore_eq harc', hs], htp' arc' harc'⟩
  · obtain ⟨hsig, hcell, -⟩ := htimeline.elsewhere (n := (trace l).length) hu hka
    refine ⟨htimeline.other hu hka, ?_, ?_⟩
    · rw [Laned, htrace, lane_append, lane_of_signalled hsig, List.append_nil]
      exact hlaned
    · rw [hcell, htrace, lane_append, lane_of_signalled hsig, List.append_nil]
      exact htp

theorem KeepsLane.inv (hfresh : FreshStream mem₀ a s) (h : StreamRuns (KeepsLane a) mem₀ mem l) :
    LaneInv a s mem l := by
  refine Runs.keeps (I := LaneInv a s) ⟨hfresh.inv, ?_, ?_⟩ (fun _ _ _ _ hinv hk ↦ hinv.call hk) h
  · intro i x hx
    simp at hx
  · obtain ⟨⟨strong, st, hcell, htp, -, -, hs⟩, -⟩ := hfresh
    intro arc harc
    obtain rfl : _ = arc := Option.some.inj (hcell.symm.trans harc)
    exact ⟨hs, htp⟩

/-- A run of fewer than `2 ^ 64` calls has no more submissions on one timeline. -/
theorem LaneInv.length_le (h : LaneInv a s mem l) : (lane s (trace l)).length ≤ l.length := by
  have hle := lane_le_signalled s (trace l)
  have hspent := h.timeline.spent
  omega

theorem LaneInv.numbered (h : LaneInv a s mem l) (hlen : l.length < 2 ^ 64) (ht : t <+: trace l)
    {i : ℕ} {x : Submission Obj Work} (hx : (lane s t)[i]? = some x) :
    x.signals = [⟨s, i + 1⟩] ∧ (x.payload.job ≠ .barrier → 0 < i → ⟨s, i⟩ ∈ x.waits) := by
  have hle := h.length_le
  obtain ⟨hlt, -⟩ := List.getElem?_eq_some_iff.mp hx
  have hpre : (lane s t).length ≤ (lane s (trace l)).length := by
    obtain ⟨u, hu⟩ := ht
    rw [← hu, lane_append, List.length_append]
    exact Nat.le_add_right _ _
  exact (h.laned.of_prefix ht i x hx).numbered (by omega)

/-- What an IREE wait that returned OK says of the device. -/
def Answers (e : Happened) (d : Device Obj Work) : Prop :=
  ∀ p timeout, e.call = .semaphoreWait p timeout → ok e = true → d.Reached p

theorem answers_of_unasked {e : Happened} {d : Device Obj Work}
    (h : isSemaphoreWait e.call = false) :
    Answers e d := by
  intro p timeout hc
  rw [hc] at h
  cases h

def newDevice : Device Obj Work := ⟨fun _ ↦ 0, [], ∅, ∅⟩

theorem newDevice_idle : newDevice.Idle := ⟨rfl, rfl, rfl⟩

def isQueueBarrier : Call → Bool
  | .queueBarrier .. => true
  | _ => false

theorem job_ne_barrier {e : Happened} {x : Submission Obj Work} (h : isQueueBarrier e.call = false)
    (hx : submission e = some x) : x.payload.job ≠ .barrier := by
  unfold submission at hx
  split at hx
  · split at hx
    · cases hx
      simp
    · rename_i hc
      rw [hc] at h
      cases h
    · cases hx
      simp
    · cases hx
  · cases hx

end HrxSystem.Libhrx
