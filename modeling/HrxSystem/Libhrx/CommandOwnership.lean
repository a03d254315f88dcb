import HrxSystem.Libhrx.QueueOps

namespace HrxSystem.Libhrx

open External Program Counting HrxStreamS

def releases (e : Happened) : Bool :=
  match e.call with
  | .commandBufferRelease _ => true
  | _ => false

/-- The last call that is handed command buffer `cb` releases it, and no other does. -/
def ReleasedOnce (cb : Obj) (t : Trace) : Prop :=
  ∃ u r, uses cb t = u ++ [r] ∧ releases r = true ∧ ∀ e ∈ u, releases e = false

/-- No call releases command buffer `cb`. -/
def Unreleased (cb : Obj) (t : Trace) : Prop := ∀ e ∈ uses cb t, releases e = false

theorem ReleasedOnce.not_unreleased {cb : Obj} {t : Trace} (h : ReleasedOnce cb t) :
    ¬ Unreleased cb t := by
  obtain ⟨u, r, hu, hr, -⟩ := h
  intro hnone
  have hfalse := hnone r (by simp [hu])
  simp [hr] at hfalse

def Held (_ : Obj) (u : Trace) : Prop := ∀ e ∈ u, releases e = false

def GivenUp (_ : Obj) (u : Trace) : Prop :=
  u = [] ∨ ∃ v r, u = v ++ [r] ∧ releases r = true ∧ ∀ e ∈ v, releases e = false

theorem Held.giveUp {cb : Obj} {u v : Trace} {r : Happened} (hu : Held cb u)
    (hv : ∀ e ∈ v, releases e = false) (hr : releases r = true) : GivenUp cb (u ++ (v ++ [r])) := by
  refine .inr ⟨u ++ v, r, (List.append_assoc ..).symm, hr, ?_⟩
  intro e he
  exact (List.mem_append.mp he).elim (hu e) (hv e)

theorem Held.append {cb : Obj} {u v : Trace} (hu : Held cb u) (hv : ∀ e ∈ v, releases e = false) :
    Held cb (u ++ v) := by
  intro e he
  exact (List.mem_append.mp he).elim (hu e) (hv e)

theorem release_custody : Custody True Held GivenUp where
  unused _ := .inl rfl
  opened hb _ := by simp [Held, releases, hb]
  unbegun {b r cb} hb _ hr := .inr ⟨[b], r, rfl, by simp [releases, hr], by simp [releases, hb]⟩
  recorded hu he := hu.append (by simp [releases, he])
  notEnded hu he _ := hu.append (by simp [releases, he])
  rejected _ hu he _ hx _ := hu.append (by simp [releases, he, hx])
  executed {_ e x _ _ _ _ _ _} hu he _ hx _ hr :=
    hu.giveUp (v := [e, x]) (by simp [releases, he, hx]) (by simp [releases, hr])
  abandoned {_ e x _ _ _ _ _ _} hu he _ hx _ hr :=
    hu.giveUp (v := [e, x]) (by simp [releases, he, hx]) (by simp [releases, hr])
  released hu hr := hu.giveUp (v := []) (by simp) (by simp [releases, hr])

variable {n n' : ℕ} {t es : Trace} {streams streams' : ℕ → Option (Arc HrxStreamS)}

theorem Transfer.uses {u : Trace} (h : Transfer n u) :
    u ≠ [] ∧ ∀ e ∈ u, cbOf e.call = some n ∧ releases e = false ∧ creates e = false := by
  cases h with
  | notBegun hb => simp [cbOf, releases, creates, hb]
  | notRecorded hb _ hc => simp [cbOf, releases, creates, hb, hc]
  | notEnded hb _ hc _ he => simp [cbOf, releases, creates, hb, hc, he]
  | executed hb _ hc _ he _ hx => simp [cbOf, releases, creates, hb, hc, he, hx]

theorem Kept.transfer {x r : Happened} {u tail : Trace} (h : Kept Held GivenUp n t streams)
    (hx : ∃ d k f, x.call = .commandBufferCreate d k f) (hpos : x.pos = n) (hu : Transfer n u)
    (hr : r.call = .commandBufferRelease (some n))
    (htail : ∀ e ∈ tail, Libhrx.quiet e.call = true) :
    Kept Held GivenUp (n + (x :: (u ++ [r]) ++ tail).length) (t ++ (x :: (u ++ [r]) ++ tail))
      streams := by
  obtain ⟨d, k, f, hx⟩ := hx
  obtain ⟨hne, hall⟩ := hu.uses
  have huses : ∀ cb : ℕ, uses cb (x :: (u ++ [r]) ++ tail) = if cb = n then u ++ [r] else [] := by
    intro cb
    have hown : ∀ e ∈ u ++ [r], cbOf e.call = some n := by
      intro e he
      obtain he | he := List.mem_append.mp he
      · exact (hall e he).1
      · rw [List.mem_singleton.mp he, hr, cbOf]
    have hskip : uses cb (x :: (u ++ [r])) = uses cb (u ++ [r]) := by simp [Libhrx.uses, hx, cbOf]
    rw [uses_append, uses_of_quiet htail, List.append_nil, hskip]
    split
    · rename_i heq
      rw [heq, uses_of_all hown]
    · rename_i hne'
      exact uses_of_other hown hne'
  have hsame : ∀ cb : ℕ, cb ≠ n → uses cb (t ++ (x :: (u ++ [r]) ++ tail)) = uses cb t := by
    intro cb hcb
    rw [uses_append, huses, if_neg hcb, List.append_nil]
  have hlen : n < n + (x :: (u ++ [r]) ++ tail).length := by simp
  refine ⟨?_, ?_, h.distinct, ?_, h.work, ?_⟩
  · intro cb hcb
    rw [hsame cb (by omega)]
    exact h.later cb (by omega)
  · intro b arc cb hb hcb
    obtain ⟨hlt, hp⟩ := h.pending b arc cb hb hcb
    exact ⟨by omega, by rwa [hsame cb (by omega)]⟩
  · intro cb hidle
    by_cases hcb : cb = n
    · subst hcb
      rw [uses_append, huses, if_pos rfl, h.later cb le_rfl, List.nil_append]
      exact .inr ⟨u, r, rfl, by simp [releases, hr], fun e he ↦ (hall e he).2.1⟩
    · rw [hsame cb hcb]
      exact h.idle cb hidle
  · intro e he hcreates
    obtain he | he := List.mem_append.mp he
    · rw [uses_append]
      exact fun hnil ↦ h.made e he hcreates (List.append_eq_nil_iff.mp hnil).1
    · have hex : e = x := by
        obtain he | he := List.mem_append.mp he
        · obtain rfl | he := List.mem_cons.mp he
          · rfl
          · obtain he | he := List.mem_append.mp he
            · simp [(hall e he).2.2] at hcreates
            · simp [List.mem_singleton.mp he, creates, hr] at hcreates
        · simp [not_creates_of_quiet (htail e he)] at hcreates
      rw [hex, hpos, uses_append, huses, if_pos rfl]
      simp

theorem Kept.addStream {a : ℕ} {st : HrxStreamS} {P Q : Obj → Trace → Prop}
    (h : Kept P Q n t streams) (ha : streams a = none) (hcb : st.pendingCb = none)
    (hwork : st.hasPendingWork = false) :
    Kept P Q n t (Function.update streams a (some ⟨1, st⟩)) := by
  have hcases : ∀ b arc, Function.update streams a (some ⟨1, st⟩) b = some arc →
      arc.data = st ∨ streams b = some arc := by
    intro b arc hb
    by_cases hba : b = a
    · rw [hba, Function.update_self] at hb
      exact .inl (by rw [← Option.some.inj hb])
    · rw [Function.update_of_ne hba] at hb
      exact .inr hb
  refine ⟨h.later, ?_, ?_, ?_, ?_, h.made⟩
  · intro b arc cb hb hp
    obtain rfl | hb := hcases b arc hb
    · rw [hcb] at hp
      cases hp
    · exact h.pending b arc cb hb hp
  · intro b b' arc arc' cb hb hb' hp hp'
    obtain rfl | hb := hcases b arc hb
    · rw [hcb] at hp
      cases hp
    obtain rfl | hb' := hcases b' arc' hb'
    · rw [hcb] at hp'
      cases hp'
    exact h.distinct b b' arc arc' cb hb hb' hp hp'
  · intro cb hidle
    refine h.idle cb fun b arc hb ↦ hidle b arc ?_
    rwa [Function.update_of_ne]
    rintro rfl
    rw [ha] at hb
    cases hb
  · intro b arc hb hw
    obtain rfl | hb := hcases b arc hb
    · rw [hwork] at hw
      cases hw
    · exact h.work b arc hb hw

abbrev QueueLog := List (Entry Call Answer Memory Returned QueueCall)

/-- What callers and the outside promise of each call that uses command buffers. -/
def QueueLive (mem : Memory) (k : QueueCall) (o : Outside) : Prop :=
  (∀ j, k = .stream j → Live mem j) ∧ Roomy o

def QueueUsual (n : ℕ) (mem : Memory) (k : QueueCall) (o : Outside) : Prop :=
  QueueLive mem k o ∧ k.Fitting o n

variable {mem mem₀ : Memory} {k : QueueCall} {o : Outside} {l : QueueLog}

theorem QueueCall.direct_kept (h : Kept Held GivenUp n t mem.streams.cell) (hk : k.direct = true)
    (hfits : k.Fitting o n) :
    Kept Held GivenUp (n + (k.run.run o n mem).events.length) (t ++ (k.run.run o n mem).events)
      mem.streams.cell := by
  obtain ⟨-, hquiet | ⟨x, v, tail, hev, ⟨d, c, f, hx⟩, hpos, htail, hv⟩⟩ :=
    QueueCall.direct_cases hk o n mem hfits
  · exact h.quiet hquiet (Nat.le_add_right _ _)
  rw [hev]
  obtain ⟨rfl, hok⟩ | ⟨u, r, rfl, hu, hr⟩ := hv
  · refine h.aside ?_ ?_ (Nat.le_add_right _ _)
    · intro cb
      rw [uses_append, uses_of_quiet htail]
      simp [uses, hx, cbOf]
    · intro e he
      obtain he | he := List.mem_append.mp he
      · simp [List.mem_singleton.mp he, creates, hx, hok]
      · exact not_creates_of_quiet (htail e he)
  · exact h.transfer ⟨d, c, f, hx⟩ hpos hu hr htail

/-- A call may change the stream it is on, or add one without a command buffer. -/
theorem QueueCall.kept (h : Kept Held GivenUp n t mem.streams.cell) (hk : QueueUsual n mem k o) :
    Kept Held GivenUp (n + (k.run.run o n mem).events.length) (t ++ (k.run.run o n mem).events)
        (k.run.run o n mem).state.streams.cell ∧
      ∀ b arc, k.onStream ≠ some b → arc.data.pendingCb ≠ none →
        ((k.run.run o n mem).state.streams.cell b = some arc ↔ mem.streams.cell b = some arc) := by
  obtain ⟨⟨hlive, ho⟩, hfits⟩ := hk
  have hdirect : k.direct = true → Kept Held GivenUp (n + (k.run.run o n mem).events.length)
        (t ++ (k.run.run o n mem).events) (k.run.run o n mem).state.streams.cell ∧
      ∀ b arc, k.onStream ≠ some b → arc.data.pendingCb ≠ none →
        ((k.run.run o n mem).state.streams.cell b = some arc ↔ mem.streams.cell b = some arc) := by
    intro hd
    have hkept := QueueCall.direct_kept h hd hfits
    rw [(QueueCall.direct_cases hd o n mem hfits).1]
    exact ⟨hkept, fun _ _ _ _ ↦ Iff.rfl⟩
  cases k with
  | fill => exact hdirect rfl
  | copy => exact hdirect rfl
  | streamCreate device flags out =>
    obtain ⟨hquiet, hstreams⟩ := hrxStreamCreate_cases o n mem device flags out
    have hkept := h.quiet hquiet
      (Nat.le_add_right n ((hrxStreamCreate device flags out).run o n mem).events.length)
    simp only [run]
    obtain hs | ⟨a, st, ha, hcb, hwork, hs⟩ := hstreams
    · rw [hs]
      exact ⟨hkept, fun _ _ _ _ ↦ Iff.rfl⟩
    · rw [hs]
      refine ⟨hkept.addStream ha hcb hwork, ?_⟩
      intro b arc _ hp
      by_cases hba : b = a
      · subst hba
        rw [Heap.put_cell_self, ha]
        refine ⟨?_, fun h ↦ by cases h⟩
        rintro heq
        obtain rfl := Option.some.inj heq
        exact absurd hcb hp
      · rw [Heap.put_cell_of_ne _ _ hba]
  | stream j =>
    have hu : Usual n mem j o := ⟨hlive j rfl, ho⟩
    refine ⟨StreamCall.kept release_custody h hu (.inl trivial), ?_⟩
    intro b arc hb _
    cases ha : j.stream with
    | none =>
      obtain ⟨err, hrun⟩ := StreamCall.run_null n mem ho ha
      simp only [run, hrun]
    | some a =>
      obtain ⟨arc', hcell⟩ := hu.1 a ha
      obtain ⟨-, hrest⟩ := StreamCall.run_lives (n := n) ho ha hcell
      have hne : b ≠ a := by
        rintro rfl
        exact hb ha
      simp only [run, hrest b hne]

theorem Kept.holder (h : Kept Held GivenUp n t streams) {x : Happened} (hx : x ∈ t)
    (hc : creates x = true) (hu : Unreleased x.pos t) :
    ∃ b arc, streams b = some arc ∧ arc.data.pendingCb = some x.pos := by
  by_contra hnone
  have hidle := h.idle x.pos fun b arc hb hcb ↦ hnone ⟨b, arc, hb, hcb⟩
  obtain hnil | ⟨v, r, hv, hr, -⟩ := hidle
  · exact h.made x hx hc hnil
  · have hfalse := hu r (by simp [hv])
    simp [hr] at hfalse

/-- The calls on a stream left no other command buffer unreleased than its pending one. -/
def PendingOnly (mem : Memory) (l : QueueLog) : Prop :=
  ∀ e ∈ l, ∀ b, e.call.onStream = some b → ∀ x ∈ e.result.events, creates x = true →
    Unreleased x.pos (trace l) → ∃ arc, mem.streams.cell b = some arc ∧
    arc.data.pendingCb = some x.pos

theorem Unreleased.left {cb : Obj} {t u : Trace} (h : Unreleased cb (t ++ u)) :
    Unreleased cb t := by
  intro e he
  exact h e (by simp [he])

theorem PendingOnly.call (h : PendingOnly mem l)
    (hkept : Kept Held GivenUp (trace l).length (trace l) mem.streams.cell)
    (hk : QueueUsual (trace l).length mem k o) :
    PendingOnly (k.run.run o (trace l).length mem).state
      (l ++ [⟨mem, k, k.run.run o (trace l).length mem⟩]) := by
  obtain ⟨hkept', hrest⟩ := QueueCall.kept hkept hk
  intro e he b hb x hx hc hu
  rw [trace_append, trace_single] at hu
  have hmem : x ∈ trace l ++ (k.run.run o (trace l).length mem).events := by
    rw [List.mem_append]
    obtain he | he := List.mem_append.mp he
    · exact .inl (List.mem_flatMap.mpr ⟨e, he, hx⟩)
    · rw [List.mem_singleton.mp he] at hx
      exact .inr hx
  obtain ⟨b', arc', hb', hcb'⟩ := hkept'.holder hmem hc hu
  -- The holder is the stream of the call: another one was left as it was.
  by_cases hon : k.onStream = some b'
  · obtain he | he := List.mem_append.mp he
    · obtain ⟨arc, harc, hcb⟩ := h e he b hb x hx hc hu.left
      by_cases hbb : k.onStream = some b
      · obtain rfl : b' = b := Option.some.inj (hon.symm.trans hbb)
        exact ⟨arc', hb', hcb'⟩
      · exact ⟨arc, (hrest b arc hbb (by simp [hcb])).mpr harc, hcb⟩
    · rw [List.mem_singleton.mp he] at hb
      obtain rfl : b' = b := Option.some.inj (hon.symm.trans hb)
      exact ⟨arc', hb', hcb'⟩
  · have hbefore := (hrest b' arc' hon (by simp [hcb'])).mp hb'
    obtain he | he := List.mem_append.mp he
    · obtain ⟨arc, harc, hcb⟩ := h e he b hb x hx hc hu.left
      obtain rfl := hkept.distinct b' b arc' arc x.pos hbefore harc hcb' hcb
      exact ⟨arc', hb', hcb'⟩
    · have hlt := (hkept.pending b' arc' x.pos hbefore hcb').1
      rw [List.mem_singleton.mp he] at hx
      have hpos : x.pos ∈ (k.run.run o (trace l).length mem).events.map Event.pos :=
        List.mem_map_of_mem hx
      rw [k.run.ordered, List.mem_range'_1] at hpos
      omega

def Prepared (cb : Obj) (u : Trace) : Prop :=
  ∃ b c e command, [b, c, e].Sublist u ∧ b.call = .commandBufferBegin (some cb) ∧ ok b = true ∧
    c.call = .commandBufferRecord (some cb) command ∧ ok c = true ∧
    e.call = .commandBufferEnd (some cb) ∧ ok e = true

/-- What a direct queue operation does to the command buffer it creates. -/
structure Direct (es : Trace) : Prop where
  released : ∀ x ∈ es, creates x = true → ReleasedOnce x.pos es
  submits : ∀ u y v d f w g cb, es = u ++ y :: v → y.call = .queueExecute d f w g cb →
    ∃ c, cb = some c ∧ Prepared c u

theorem Transfer.submits {u : Trace} (h : Transfer n u) :
    (∀ e ∈ u, isQueueExecute e.call = false) ∨
      ∃ v x d f w g, u = v ++ [x] ∧ (∀ e ∈ v, isQueueExecute e.call = false) ∧
        x.call = .queueExecute d f w g (some n) ∧ Prepared n v := by
  cases h with
  | notBegun hb => exact .inl (by simp [isQueueExecute, hb])
  | notRecorded hb _ hc => exact .inl (by simp [isQueueExecute, hb, hc])
  | notEnded hb _ hc _ he => exact .inl (by simp [isQueueExecute, hb, hc, he])
  | @executed b c e x command _ _ _ _ hb hbok hc hcok he heok hx =>
    refine .inr ⟨[b, c, e], x, _, _, _, _, rfl, by simp [isQueueExecute, hb, hc, he], hx, ?_⟩
    exact ⟨b, c, e, command, .refl _, hb, hbok, hc, hcok, he, heok⟩

theorem eq_of_append_cons {α : Type} {p : α → Bool} {u v w z : List α} {x y : α}
    (hu : ∀ e ∈ u, p e = false) (hw : ∀ e ∈ w, p e = false) (hy : p y = true)
    (h : u ++ x :: w = v ++ y :: z) : v = u ∧ y = x := by
  induction u generalizing v with
  | nil =>
    cases v with
    | nil => exact ⟨rfl, (List.cons.inj h).1.symm⟩
    | cons e v =>
      have hmem : y ∈ w := by
        rw [(List.cons.inj h).2]
        simp
      simp [hw y hmem] at hy
  | cons e u ih =>
    cases v with
    | nil =>
      rw [← (List.cons.inj h).1] at hy
      simp [hu e (by simp)] at hy
    | cons e' v =>
      obtain ⟨rfl, htail⟩ := List.cons.inj h
      obtain ⟨rfl, hxy⟩ := ih (fun e he ↦ hu e (by simp [he])) htail
      exact ⟨rfl, hxy⟩

theorem not_executes_of_quiet {e : Happened} (h : quiet e.call = true) :
    isQueueExecute e.call = false := by
  unfold isQueueExecute
  split
  · rename_i hc
    simp [hc, quiet] at h
  · rfl

theorem direct_of_none {es : Trace} (hc : ∀ e ∈ es, creates e = false)
    (hx : ∀ e ∈ es, isQueueExecute e.call = false) : Direct es := by
  refine ⟨?_, ?_⟩
  · intro x hmem hcreates
    simp [hc x hmem] at hcreates
  · rintro u y v d f w g cb rfl hy
    have hfalse := hx y (by simp)
    simp [hy, isQueueExecute] at hfalse

theorem Transfer.direct {x r : Happened} {u tail : Trace} {d c f : Obj} (hu : Transfer n u)
    (hx : x.call = .commandBufferCreate d c f) (hpos : x.pos = n)
    (hr : r.call = .commandBufferRelease (some n))
    (htail : ∀ e ∈ tail, Libhrx.quiet e.call = true) :
    Direct (x :: (u ++ [r]) ++ tail) := by
  obtain ⟨-, hall⟩ := hu.uses
  refine ⟨?_, ?_⟩
  · intro y hy hcreates
    obtain rfl : y = x := by
      simp only [List.mem_append, List.mem_cons, List.not_mem_nil, or_false] at hy
      obtain (rfl | hy | rfl) | hy := hy
      · rfl
      · simp [(hall y hy).2.2] at hcreates
      · simp [creates, hr] at hcreates
      · simp [not_creates_of_quiet (htail y hy)] at hcreates
    refine ⟨u, r, ?_, by simp [releases, hr], fun e he ↦ (hall e he).2.1⟩
    have hown : ∀ e ∈ u ++ [r], cbOf e.call = some n := by
      intro e he
      obtain he | he := List.mem_append.mp he
      · exact (hall e he).1
      · rw [List.mem_singleton.mp he, hr, cbOf]
    have hskip : Libhrx.uses n (y :: (u ++ [r])) = Libhrx.uses n (u ++ [r]) := by
      simp [Libhrx.uses, hx, cbOf]
    rw [hpos, uses_append, uses_of_quiet htail, List.append_nil, hskip, uses_of_all hown]
  · intro v y z d' f' w g cb hes hy
    have hlast : ∀ e ∈ r :: tail, isQueueExecute e.call = false := by
      intro e he
      obtain rfl | he := List.mem_cons.mp he
      · simp [isQueueExecute, hr]
      · exact not_executes_of_quiet (htail e he)
    obtain hnone | ⟨v', y', d'', f'', w', g', rfl, hv', hy', hprep⟩ := hu.submits
    · have hmem : y ∈ x :: (u ++ [r]) ++ tail := by
        rw [hes]
        simp
      have hfalse : isQueueExecute y.call = false := by
        simp only [List.append_assoc, List.cons_append, List.nil_append] at hmem
        obtain rfl | hmem := List.mem_cons.mp hmem
        · simp [isQueueExecute, hx]
        · exact (List.mem_append.mp hmem).elim (hnone y) (hlast y)
      simp [hy, isQueueExecute] at hfalse
    · have hsplit : (x :: v') ++ y' :: (r :: tail) = v ++ y :: z := by
        rw [← hes]
        simp
      have hfirst : ∀ e ∈ x :: v', isQueueExecute e.call = false := by
        intro e he
        obtain rfl | he := List.mem_cons.mp he
        · simp [isQueueExecute, hx]
        · exact hv' e he
      obtain ⟨rfl, rfl⟩ := eq_of_append_cons (p := fun e : Happened ↦ isQueueExecute e.call)
        hfirst hlast (by simp [hy, isQueueExecute]) hsplit
      rw [hy'] at hy
      cases hy
      obtain ⟨b, c, e, command, hsub, hrest⟩ := hprep
      exact ⟨n, rfl, b, c, e, command, hsub.cons x, hrest⟩

theorem QueueCall.direct_events (hk : k.direct = true) (hfits : k.Fitting o n) :
    Direct (k.run.run o n mem).events := by
  obtain ⟨-, hquiet | ⟨x, v, tail, hev, ⟨d, c, f, hx⟩, hpos, htail, hv⟩⟩ :=
    QueueCall.direct_cases hk o n mem hfits
  · exact direct_of_none (fun e he ↦ not_creates_of_quiet (hquiet e he))
      fun e he ↦ not_executes_of_quiet (hquiet e he)
  rw [hev]
  obtain ⟨rfl, hok⟩ | ⟨u, r, rfl, hu, hr⟩ := hv
  · refine direct_of_none ?_ ?_
    · intro e he
      obtain rfl | he := List.mem_cons.mp he
      · simp [creates, hx, hok]
      · exact not_creates_of_quiet (htail e he)
    · intro e he
      obtain rfl | he := List.mem_cons.mp he
      · simp [isQueueExecute, hx]
      · exact not_executes_of_quiet (htail e he)
  · exact hu.direct hx hpos hr htail

structure Owned (mem : Memory) (l : QueueLog) : Prop where
  once : ∀ x ∈ trace l, creates x = true → ReleasedOnce x.pos (trace l) ∨
    Unreleased x.pos (trace l) ∧ ∃ b arc, mem.streams.cell b = some arc ∧
    arc.data.pendingCb = some x.pos
  one : PendingOnly mem l
  work : ∀ b arc, mem.streams.cell b = some arc → arc.data.hasPendingWork = true →
    arc.data.pendingCb ≠ none
  direct : ∀ e ∈ l, e.call.direct = true → Direct e.result.events

theorem command_buffers_owned (hfresh : AllFresh mem₀)
    (h : Runs QueueCall.run QueueUsual mem₀ mem l) :
    Owned mem l := by
  have hinv : Kept Held GivenUp (trace l).length (trace l) mem.streams.cell ∧ PendingOnly mem l ∧
      ∀ e ∈ l, e.call.direct = true → Direct e.result.events := by
    refine Runs.keeps
      (I := fun mem l ↦ Kept Held GivenUp (trace l).length (trace l) mem.streams.cell ∧
      PendingOnly mem l ∧ ∀ e ∈ l, e.call.direct = true → Direct e.result.events) ?_ ?_ h
    · exact ⟨hfresh.kept release_custody, by simp [PendingOnly], by simp⟩
    · rintro mem l k o ⟨hkept, hone, hdirect⟩ hk
      refine ⟨?_, hone.call hkept hk, ?_⟩
      · rw [trace_append, trace_single, List.length_append]
        exact (QueueCall.kept hkept hk).1
      · intro e he hd
        obtain he | he := List.mem_append.mp he
        · exact hdirect e he hd
        · rw [List.mem_singleton.mp he] at hd ⊢
          exact QueueCall.direct_events hd hk.2
  obtain ⟨hkept, hone, hdirect⟩ := hinv
  refine ⟨?_, hone, hkept.work, hdirect⟩
  intro x hx hc
  by_cases hu : Unreleased x.pos (trace l)
  · exact .inr ⟨hu, hkept.holder hx hc hu⟩
  · refine .inl ((hkept.idle x.pos ?_).resolve_left (hkept.made x hx hc))
    intro b arc hb hcb
    exact hu (hkept.pending b arc x.pos hb hcb).2

def refusedThenDropped : List (QueueCall × Outside) :=
  [(.fill (some ⟨1, 4, 2, 3⟩) 0 none none (some ⟨1, 7⟩) 0 16 (some 0) 4, allBut isQueueExecute),
    (.stream (.executionBarrier (some 1)), allSucceed), (.stream (.release 1), allSucceed)]

theorem command_buffers_owned_dropped : Owned (play QueueCall.run oneStream [] refusedThenDropped).1
    (play QueueCall.run oneStream [] refusedThenDropped).2 := by
  refine command_buffers_owned oneStream_allFresh (Runs.play .start _ ?_)
  have hnone : SemaphoreLists.Fits none := fun l hl ↦ nomatch hl
  refine ⟨⟨⟨nofun, allBut_roomy rfl⟩, fun _ ↦ ⟨hnone, hnone⟩⟩, ⟨⟨?_, allSucceed_roomy⟩, trivial⟩,
    ⟨⟨?_, allSucceed_roomy⟩, trivial⟩, trivial⟩
  all_goals
    rintro j ⟨⟩ a h
    cases h
    exact ⟨_, rfl⟩

def overrunFill : List (QueueCall × Outside) :=
  [(.fill (some ⟨1, 4, 2, 3⟩) 0 (some SemaphoreLists.seventeen) none (some ⟨1, 7⟩) 0 16 (some 0) 4,
    allSucceed)]

/-- It ends in its stack arrays, and its command buffer is not released. -/
theorem fill_leaks_command_buffer : AllFresh oneStream ∧
    Runs QueueCall.run (fun _ mem k o ↦ QueueLive mem k o) oneStream
      (play QueueCall.run oneStream [] overrunFill).1
      (play QueueCall.run oneStream [] overrunFill).2 ∧
    ¬ Owned (play QueueCall.run oneStream [] overrunFill).1
      (play QueueCall.run oneStream [] overrunFill).2 := by
  refine ⟨oneStream_allFresh, Runs.play .start _ ⟨⟨nofun, allSucceed_roomy⟩, trivial⟩, fun h ↦ ?_⟩
  have htrace : trace (play QueueCall.run oneStream [] overrunFill).2 =
      [happens allSucceed 0 (.commandBufferCreate 4 1 affinityAny),
        happens allSucceed 1 (.commandBufferBegin (some 0)),
        happens allSucceed 2 (.commandBufferRecord (some 0) (.fillBuffer ⟨7, 0, 16⟩ 0 4)),
        happens allSucceed 3 (.commandBufferEnd (some 0))] := rfl
  have hunreleased : Unreleased 0 (trace (play QueueCall.run oneStream [] overrunFill).2) := by
    rw [htrace]
    intro e he
    simp only [uses, List.mem_filter, List.mem_cons, List.not_mem_nil, or_false] at he
    obtain ⟨rfl | rfl | rfl | rfl, -⟩ := he <;> rfl
  obtain hreleased | ⟨-, b, arc, hb, hcb⟩ := h.once (happens allSucceed 0 _)
    (htrace ▸ List.mem_cons_self) rfl
  · exact hreleased.not_unreleased hunreleased
  · have hfresh := (oneStream_allFresh b arc hb).1
    rw [hfresh] at hcb
    cases hcb

end HrxSystem.Libhrx
