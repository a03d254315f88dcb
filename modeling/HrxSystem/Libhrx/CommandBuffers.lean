import HrxSystem.Libhrx.StreamLives

namespace HrxSystem.Libhrx

open External Program Counting HrxStreamS

def cbOf : Call → Option Obj
  | .commandBufferBegin cb | .commandBufferRecord cb _ | .commandBufferEnd cb
  | .commandBufferRelease cb | .queueExecute _ _ _ _ cb => cb
  | _ => none

def uses (cb : Obj) (t : Trace) : Trace := t.filter fun e ↦ cbOf e.call = some cb

/-- The event created a command buffer, which is known by its place. -/
def creates (e : Happened) : Bool :=
  match e.call with
  | .commandBufferCreate .. => ok e
  | _ => false

def refused (e : Happened) : Bool :=
  match e.call with
  | .queueExecute .. => !ok e
  | _ => false

@[simp] theorem uses_nil (cb : Obj) : uses cb [] = [] := rfl

@[simp] theorem uses_append (cb : Obj) (t u : Trace) : uses cb (t ++ u) = uses cb t ++ uses cb u :=
  List.filter_append ..

theorem uses_of_all {cb : Obj} {es : Trace} (h : ∀ e ∈ es, cbOf e.call = some cb) :
    uses cb es = es := by
  rw [uses, List.filter_eq_self]
  simpa using h

theorem uses_of_other {cb cb' : Obj} {es : Trace} (h : ∀ e ∈ es, cbOf e.call = some cb)
    (hne : cb' ≠ cb) : uses cb' es = [] := by
  rw [uses, List.filter_eq_nil_iff]
  intro e he
  simp [h e he, hne.symm]

theorem cbOf_of_quiet {e : Happened} (h : quiet e.call = true) : cbOf e.call = none := by
  cases hc : e.call <;> first | rfl | simp [hc, quiet] at h

theorem uses_of_quiet {es : Trace} (h : ∀ e ∈ es, quiet e.call = true) (cb : Obj) :
    uses cb es = [] := by
  rw [uses, List.filter_eq_nil_iff]
  intro e he
  simp [cbOf_of_quiet (h e he)]

theorem not_creates_of_quiet {e : Happened} (h : quiet e.call = true) : creates e = false := by
  cases hc : e.call <;> first | simp [hc, quiet] at h; done | simp [creates, hc]

/-- Two conditions on the use of a command buffer, while a stream has it and once
none has, that the library keeps. `may` says whether a stream may go on with a
command buffer whose execution was refused. -/
structure Custody (may : Prop) (P Q : Obj → Trace → Prop) : Prop where
  unused : ∀ cb, Q cb []
  opened : ∀ {b : Happened} {cb : Obj}, b.call = .commandBufferBegin (some cb) →
    ok b = true → P cb [b]
  unbegun : ∀ {b r : Happened} {cb : Obj}, b.call = .commandBufferBegin (some cb) → ok b = false →
    r.call = .commandBufferRelease (some cb) → Q cb [b, r]
  recorded : ∀ {u : Trace} {e : Happened} {cb : Obj} {c : Command}, P cb u →
    e.call = .commandBufferRecord (some cb) c → P cb (u ++ [e])
  notEnded : ∀ {u : Trace} {e : Happened} {cb : Obj}, P cb u →
    e.call = .commandBufferEnd (some cb) →
    ok e = false → P cb (u ++ [e])
  rejected : ∀ {u : Trace} {e x : Happened} {cb d f : Obj} {w g : List SemaphorePoint},
    may → P cb u →
    e.call = .commandBufferEnd (some cb) → ok e = true →
    x.call = .queueExecute d f w g (some cb) → ok x = false → P cb (u ++ [e, x])
  executed : ∀ {u : Trace} {e x r : Happened} {cb d f : Obj} {w g : List SemaphorePoint}, P cb u →
    e.call = .commandBufferEnd (some cb) → ok e = true →
    x.call = .queueExecute d f w g (some cb) → ok x = true →
    r.call = .commandBufferRelease (some cb) → Q cb (u ++ [e, x, r])
  abandoned : ∀ {u : Trace} {e x r : Happened} {cb d f : Obj} {w g : List SemaphorePoint}, P cb u →
    e.call = .commandBufferEnd (some cb) → ok e = true →
    x.call = .queueExecute d f w g (some cb) → ok x = false →
    r.call = .commandBufferRelease (some cb) → Q cb (u ++ [e, x, r])
  released : ∀ {u : Trace} {r : Happened} {cb : Obj}, P cb u →
    r.call = .commandBufferRelease (some cb) → Q cb (u ++ [r])

variable {may : Prop} {P Q : Obj → Trace → Prop} {others : Obj → Prop} {n n' : ℕ} {t es : Trace}
variable {st st' : HrxStreamS}

/-- The command buffers at place `n`, seen from one stream: its own, those of the
other streams, and those that no stream has. -/
structure Ward (P Q : Obj → Trace → Prop) (others : Obj → Prop) (n : ℕ) (t : Trace)
    (st : HrxStreamS) :
    Prop where
  later : ∀ cb : ℕ, n ≤ cb → uses cb t = []
  own : ∀ cb : ℕ, st.pendingCb = some cb → cb < n ∧ ¬ others cb ∧ P cb (uses cb t)
  theirs : ∀ cb : ℕ, others cb → cb < n ∧ P cb (uses cb t)
  idle : ∀ cb : ℕ, ¬ others cb → st.pendingCb ≠ some cb → Q cb (uses cb t)
  work : st.hasPendingWork = true → st.pendingCb ≠ none
  made : ∀ e ∈ t, creates e = true → uses e.pos t ≠ []

/-- Calls that use one command buffer, which no other stream has, and leave it
with the stream or with none. -/
theorem Ward.extend (hw : Ward P Q others n t st) (target : ℕ) (hn : n ≤ n')
    (huses : ∀ cb : ℕ, cb ≠ target → uses cb es = []) (hlt : target < n') (hfree : ¬ others target)
    (hwork : st'.hasPendingWork = true → st'.pendingCb ≠ none)
    (hmade : ∀ e ∈ es, creates e = true → e.pos = target ∧ uses target es ≠ [])
    (hrest : ∀ cb : ℕ, cb ≠ target → (st'.pendingCb = some cb ↔ st.pendingCb = some cb))
    (htarget : st'.pendingCb = some target ∧ P target (uses target t ++ uses target es) ∨
      st'.pendingCb ≠ some target ∧ Q target (uses target t ++ uses target es)) :
    Ward P Q others n' (t ++ es) st' := by
  have hsame : ∀ cb : ℕ, cb ≠ target → uses cb (t ++ es) = uses cb t := by
    intro cb hcb
    rw [uses_append, huses cb hcb, List.append_nil]
  refine ⟨?_, ?_, ?_, ?_, hwork, ?_⟩
  · intro cb hcb
    rw [hsame cb (by omega)]
    exact hw.later cb (by omega)
  · intro cb hcb
    by_cases heq : cb = target
    · subst heq
      obtain ⟨-, hp⟩ | ⟨hne, -⟩ := htarget
      · exact ⟨hlt, hfree, by rwa [uses_append]⟩
      · exact absurd hcb hne
    · obtain ⟨hlt', hfree', hp⟩ := hw.own cb ((hrest cb heq).mp hcb)
      exact ⟨by omega, hfree', by rwa [hsame cb heq]⟩
  · intro cb hcb
    have hne : cb ≠ target := fun heq ↦ hfree (heq ▸ hcb)
    obtain ⟨hlt', hp⟩ := hw.theirs cb hcb
    exact ⟨by omega, by rwa [hsame cb hne]⟩
  · intro cb hfree' hcb
    by_cases heq : cb = target
    · subst heq
      obtain ⟨hin, -⟩ | ⟨-, hq⟩ := htarget
      · exact absurd hin hcb
      · rwa [uses_append]
    · rw [hsame cb heq]
      exact hw.idle cb hfree' fun h ↦ hcb ((hrest cb heq).mpr h)
  · intro e he hc
    rw [uses_append]
    obtain he | he := List.mem_append.mp he
    · exact fun hnil ↦ hw.made e he hc (List.append_eq_nil_iff.mp hnil).1
    · obtain ⟨hpos, hne⟩ := hmade e he hc
      rw [hpos]
      exact fun hnil ↦ hne (List.append_eq_nil_iff.mp hnil).2

theorem Ward.aside (hw : Ward P Q others n t st) (hn : n ≤ n') (huses : ∀ cb : ℕ, uses cb es = [])
    (hmade : ∀ e ∈ es, creates e = false) (hcb : st'.pendingCb = st.pendingCb)
    (hwork : st'.hasPendingWork = true → st'.pendingCb ≠ none) :
    Ward P Q others n' (t ++ es) st' := by
  have hsame : ∀ cb : ℕ, uses cb (t ++ es) = uses cb t := by
    intro cb
    rw [uses_append, huses cb, List.append_nil]
  refine ⟨?_, ?_, ?_, ?_, hwork, ?_⟩
  · intro cb hle
    rw [hsame]
    exact hw.later cb (by omega)
  · intro cb hown
    obtain ⟨hlt, hfree, hp⟩ := hw.own cb (hcb ▸ hown)
    exact ⟨by omega, hfree, by rwa [hsame]⟩
  · intro cb htheirs
    obtain ⟨hlt, hp⟩ := hw.theirs cb htheirs
    exact ⟨by omega, by rwa [hsame]⟩
  · intro cb hfree hidle
    rw [hsame]
    exact hw.idle cb hfree (hcb ▸ hidle)
  · intro e he hc
    rw [hsame]
    obtain he | he := List.mem_append.mp he
    · exact hw.made e he hc
    · simp [hmade e he] at hc

theorem Ward.quiet (hw : Ward P Q others n t st) (hn : n ≤ n')
    (hes : ∀ e ∈ es, quiet e.call = true) : Ward P Q others n' (t ++ es) st :=
  hw.aside hn (fun cb ↦ uses_of_quiet hes cb) (fun e he ↦ not_creates_of_quiet (hes e he)) rfl
    hw.work

theorem Ward.own_step (hw : Ward P Q others n t st) {cb : ℕ} (hcb : st.pendingCb = some cb)
    (hes : ∀ e ∈ es, cbOf e.call = some cb)
    (hwork : st'.hasPendingWork = true → st'.pendingCb ≠ none)
    (hafter : st'.pendingCb = some cb ∧ P cb (uses cb t ++ es) ∨
      st'.pendingCb = none ∧ Q cb (uses cb t ++ es)) :
    Ward P Q others (n + es.length) (t ++ es) st' := by
  obtain ⟨hlt, hfree, -⟩ := hw.own cb hcb
  refine hw.extend cb (by omega) (fun cb' hne ↦ uses_of_other hes hne) (by omega) hfree
    hwork ?_ ?_ ?_
  · intro e he hc
    have hu := hes e he
    cases hcall : e.call <;> simp [creates, hcall] at hc
    simp [hcall, cbOf] at hu
  · intro cb' hne
    obtain ⟨hp, -⟩ | ⟨hp, -⟩ := hafter <;> simp [hp, hcb, hne.symm]
  · rw [uses_of_all hes]
    obtain hp | ⟨hp, hq⟩ := hafter
    · exact .inl hp
    · exact .inr ⟨by simp [hp], hq⟩

/-- A small step keeps the ward. Only a refused execution needs `may`. -/
theorem Small.ward (hc : Custody may P Q) (h : Small n st es st')
    (hr : may ∨ ∀ e ∈ es, refused e = false) (hw : Ward P Q others n t st) :
    Ward P Q others (n + es.length) (t ++ es) st' := by
  have hown : ∀ {cb}, st.pendingCb = some cb → P cb (uses cb t) := fun hcb ↦ (hw.own _ hcb).2.2
  have hfree : ∀ cb, n ≤ cb → ¬ others cb := fun cb hle ho ↦ by
    have hlt := (hw.theirs cb ho).1
    omega
  cases h with
  | aside hq => exact hw.quiet (by omega) (by simpa using hq)
  | notCreated hx =>
    exact hw.aside (by omega) (fun cb ↦ by simp [uses, cbOf])
      (by simp [creates, ok, hx]) rfl hw.work
  | @notBegun d k f x y z hx hy =>
    refine hw.extend n (by omega) (fun cb hne ↦ by simp [uses, cbOf, hne.symm]) (by simp)
      (hfree n le_rfl) hw.work (by simp [creates, uses, cbOf]) (fun cb _ ↦ Iff.rfl) (.inr ⟨?_, ?_⟩)
    · intro hcb
      have hlt := (hw.own n hcb).1
      omega
    · rw [hw.later n le_rfl]
      have hq :
          Q n [⟨n + 1, .commandBufferBegin (some n), y⟩,
            ⟨n + 2, .commandBufferRelease (some n), z⟩] :=
        hc.unbegun rfl hy rfl
      simpa [uses, cbOf] using hq
  | @opened d k f x y hcb hx hy =>
    refine hw.extend n (by omega) (fun cb hne ↦ by simp [uses, cbOf, hne.symm]) (by simp)
      (hfree n le_rfl) (by simp) (by simp [creates, uses, cbOf]) (fun cb hne ↦ ?_) (.inl ⟨rfl, ?_⟩)
    · simp [hcb, hne.symm]
    · rw [hw.later n le_rfl]
      have hp : P n [⟨n + 1, .commandBufferBegin (some n), y⟩] := hc.opened rfl hy
      simpa [uses, cbOf] using hp
  | notRecorded hcb hx =>
    exact hw.own_step hcb (by simp [cbOf]) hw.work (.inl ⟨hcb, hc.recorded (hown hcb) rfl⟩)
  | half hcb hx hy =>
    refine hw.own_step hcb (by simp [cbOf]) hw.work (.inl ⟨hcb, ?_⟩)
    rw [← List.singleton_append, ← List.append_assoc]
    exact hc.recorded (hc.recorded (hown hcb) rfl) rfl
  | recorded hcb hx hy =>
    refine hw.own_step hcb (by simp [cbOf]) (by simp [hcb]) (.inl ⟨hcb, ?_⟩)
    rw [← List.singleton_append, ← List.append_assoc]
    exact hc.recorded (hc.recorded (hown hcb) rfl) rfl
  | barriered hcb hx =>
    exact hw.own_step hcb (by simp [cbOf]) (by simp [hcb])
      (.inl ⟨hcb, hc.recorded (hown hcb) rfl⟩)
  | notEnded hcb hpend hx =>
    exact hw.own_step hcb (by simp [cbOf]) hw.work (.inl ⟨hcb, hc.notEnded (hown hcb) rfl hx⟩)
  | rejected hcb hpend hx hy =>
    refine hw.own_step hcb (by simp [cbOf]) hw.work (.inl ⟨hcb, ?_⟩)
    refine hc.rejected (hr.resolve_right ?_) (hown hcb) rfl hx rfl hy
    simp [refused, ok, hy]
  | executed hcb hpend hx hy =>
    exact hw.own_step hcb (by simp [cbOf]) (by simp [flushed])
      (.inr ⟨rfl, hc.executed (hown hcb) rfl hx rfl hy rfl⟩)
  | barred hx | joined hx | notAllocated hx =>
    exact hw.aside (by omega) (fun cb ↦ by simp [uses, cbOf]) (by simp [creates]) rfl hw.work
  | allocated hx hy | lost hx hy =>
    exact hw.aside (by omega) (fun cb ↦ by simp [uses, cbOf]) (by simp [creates]) rfl hw.work

theorem Steps.ward (hc : Custody may P Q) (h : Steps n st es st')
    (hr : may ∨ ∀ e ∈ es, refused e = false) (hw : Ward P Q others n t st) :
    Ward P Q others (n + es.length) (t ++ es) st' := by
  have hparts : ∀ es fs : Trace, (may ∨ ∀ e ∈ es ++ fs, refused e = false) →
      (may ∨ ∀ e ∈ es, refused e = false) ∧ (may ∨ ∀ e ∈ fs, refused e = false) := by
    rintro es fs (hmay | hall)
    · exact ⟨.inl hmay, .inl hmay⟩
    · exact ⟨.inr fun e he ↦ hall e (List.mem_append_left _ he),
        .inr fun e he ↦ hall e (List.mem_append_right _ he)⟩
  have hw' := Chain.within (Q := fun es ↦ may ∨ ∀ e ∈ es, refused e = false) hparts h hr
  refine Chain.keeps (I := fun n t st ↦ Ward P Q others n t st) ?_ hw' hw
  rintro n t st es st' ⟨hsmall, hr⟩ hw
  exact hsmall.ward hc hr hw

theorem Small.of_refused (h : Small n st es st') (hr : ¬ ∀ e ∈ es, refused e = false) :
    st' = st ∧ ∃ cb e x d f, es = [e, x] ∧ st.pendingCb = some cb ∧
      e.call = .commandBufferEnd (some cb) ∧ ok e = true ∧
      x.call = .queueExecute d f st.waitList st.signalList (some cb) ∧ ok x = false := by
  cases h with
  | rejected hcb hpend hx hy => exact ⟨rfl, _, _, _, _, _, rfl, hcb, rfl, hx, rfl, hy⟩
  | aside hq =>
    refine absurd ?_ hr
    intro e he
    rw [List.mem_singleton] at he
    subst he
    cases hcall : e.call <;> first | simp [hcall, quiet] at hq; done | simp [refused, hcall]
  | executed hcb hpend hx hy => exact absurd (by simp [refused, ok, hy]) hr
  | _ => exact absurd (by simp [refused]) hr

theorem Ward.release (hc : Custody may P Q) (hw : Ward P Q others n t st) (o : Outside) :
    Ward P Q others (n + (leftover o n st).length) (t ++ leftover o n st)
      { st with pendingCb := none, hasPendingWork := false } := by
  unfold leftover
  split
  · rename_i hcb
    exact hw.aside (Nat.le_add_right _ _) (fun _ ↦ rfl) (by simp) (by simp [hcb]) (by simp)
  · rename_i cb hcb
    exact hw.own_step hcb (by simp [cbOf]) (by simp)
      (.inr ⟨rfl, hc.released (hw.own cb hcb).2.2 rfl⟩)

theorem Ward.drop {fs : Trace} (hc : Custody may P Q) (hw : Ward P Q others n t st) (o : Outside)
    (h : es = [] ∧ st' = st ∨ Small n st es st') (hfs : ∀ e ∈ fs, Libhrx.quiet e.call = true) :
    Ward P Q others (n + (es ++ fs ++ leftover o (n + (es ++ fs).length) st').length)
      (t ++ (es ++ fs ++ leftover o (n + (es ++ fs).length) st'))
      { st' with pendingCb := none, hasPendingWork := false } := by
  by_cases hr : ∀ e ∈ es, refused e = false
  · have hw' := ((steps_of_one h).ward hc (.inr hr) hw).quiet (Nat.le_add_right _ fs.length) hfs
    have hgone := hw'.release hc o
    simpa only [List.length_append, Nat.add_assoc, List.append_assoc] using hgone
  · obtain ⟨rfl, -⟩ | hsmall := h
    · exact absurd (by simp) hr
    obtain ⟨rfl, cb, e, x, d, f, rfl, hcb, he, heok, hx, hxok⟩ := hsmall.of_refused hr
    obtain ⟨hlt, hfree, hp⟩ := hw.own cb hcb
    have hleft : leftover o (n + ([e, x] ++ fs).length) st' =
        [happens o (n + ([e, x] ++ fs).length) (.commandBufferRelease (some cb))] := by
      simp [leftover, hcb]
    have huses : ∀ cb' : ℕ, uses cb' ([e, x] ++ fs ++
        [happens o (n + ([e, x] ++ fs).length) (.commandBufferRelease (some cb))]) =
        if cb' = cb then
          [e, x, happens o (n + ([e, x] ++ fs).length) (.commandBufferRelease (some cb))]
            else [] := by
      intro cb'
      rw [uses_append, uses_append, uses_of_quiet hfs, List.append_nil]
      by_cases heq : cb' = cb
      · simp [uses, he, hx, cbOf, heq]
      · simp [uses, he, hx, cbOf, heq, Ne.symm heq]
    rw [hleft]
    refine hw.extend cb (Nat.le_add_right _ _) (fun cb' hne ↦ ?_) (by omega) hfree
      (by simp) ?_ ?_ (.inr ⟨by simp, ?_⟩)
    · rw [huses, if_neg hne]
    · intro y hy hcreates
      simp only [List.mem_append, List.mem_cons, List.not_mem_nil, or_false] at hy
      obtain ((rfl | rfl) | hy) | rfl := hy
      · simp [creates, he] at hcreates
      · simp [creates, hx] at hcreates
      · simp [not_creates_of_quiet (hfs y hy)] at hcreates
      · simp [creates] at hcreates
    · intro cb' hne
      simp [hcb, hne.symm]
    · rw [huses, if_pos rfl]
      exact hc.abandoned hp he heok hx hxok rfl

structure Kept (P Q : Obj → Trace → Prop) (n : ℕ) (t : Trace)
    (streams : ℕ → Option (Arc HrxStreamS)) :
    Prop where
  later : ∀ cb : ℕ, n ≤ cb → uses cb t = []
  pending : ∀ b arc (cb : ℕ), streams b = some arc → arc.data.pendingCb = some cb →
    cb < n ∧ P cb (uses cb t)
  distinct : ∀ b b' arc arc' cb, streams b = some arc → streams b' = some arc' →
    arc.data.pendingCb = some cb → arc'.data.pendingCb = some cb → b = b'
  idle : ∀ cb : ℕ, (∀ b arc, streams b = some arc → arc.data.pendingCb ≠ some cb) → Q cb (uses cb t)
  work : ∀ b arc, streams b = some arc → arc.data.hasPendingWork = true → arc.data.pendingCb ≠ none
  made : ∀ e ∈ t, creates e = true → uses e.pos t ≠ []

def elsewhere (a : ℕ) (streams : ℕ → Option (Arc HrxStreamS)) (cb : Obj) : Prop :=
  ∃ b arc, b ≠ a ∧ streams b = some arc ∧ arc.data.pendingCb = some cb

variable {streams streams' : ℕ → Option (Arc HrxStreamS)} {a : ℕ} {arc : Arc HrxStreamS}

theorem Kept.ward (h : Kept P Q n t streams) (ha : streams a = some arc) :
    Ward P Q (elsewhere a streams) n t arc.data := by
  refine ⟨h.later, ?_, ?_, ?_, h.work a arc ha, h.made⟩
  · intro cb hcb
    obtain ⟨hlt, hp⟩ := h.pending a arc cb ha hcb
    refine ⟨hlt, ?_, hp⟩
    rintro ⟨b, arc', hne, hb, hcb'⟩
    exact hne (h.distinct b a arc' arc cb hb ha hcb' hcb)
  · rintro cb ⟨b, arc', -, hb, hcb⟩
    exact h.pending b arc' cb hb hcb
  · intro cb hfree hcb
    refine h.idle cb fun b arc' hb hcb' ↦ ?_
    by_cases hba : b = a
    · subst hba
      obtain rfl := Option.some.inj (hb.symm.trans ha)
      exact hcb hcb'
    · exact hfree ⟨b, arc', hba, hb, hcb'⟩

/-- Back from one stream to all: the stream `a` may be gone if it gave up its command buffer. -/
theorem Ward.kept (hw : Ward P Q (elsewhere a streams) n t st) (h : Kept P Q n' es streams)
    (hrest : ∀ b, b ≠ a → streams' b = streams b)
    (ha : (∃ strong, streams' a = some ⟨strong, st⟩) ∨ streams' a = none ∧ st.pendingCb = none) :
    Kept P Q n t streams' := by
  have hcases : ∀ b arc', streams' b = some arc' →
      b = a ∧ arc'.data = st ∨ b ≠ a ∧ streams b = some arc' := by
    intro b arc' hb
    by_cases hba : b = a
    · subst hba
      obtain ⟨strong, hst⟩ | ⟨hnone, -⟩ := ha
      · obtain rfl := Option.some.inj (hb.symm.trans hst)
        exact .inl ⟨rfl, rfl⟩
      · rw [hnone] at hb
        cases hb
    · exact .inr ⟨hba, by rw [← hrest b hba, hb]⟩
  refine ⟨hw.later, ?_, ?_, ?_, ?_, hw.made⟩
  · intro b arc' cb hb hcb
    obtain ⟨rfl, rfl⟩ | ⟨hba, hb⟩ := hcases b arc' hb
    · obtain ⟨hlt, -, hp⟩ := hw.own cb hcb
      exact ⟨hlt, hp⟩
    · exact hw.theirs cb ⟨b, arc', hba, hb, hcb⟩
  · intro b b' arc₁ arc₂ cb hb hb' hcb hcb'
    obtain ⟨rfl, rfl⟩ | ⟨hba, hb⟩ := hcases b arc₁ hb <;>
      obtain ⟨rfl, hst⟩ | ⟨hba', hb'⟩ := hcases b' arc₂ hb'
    · rfl
    · exact absurd ⟨b', arc₂, hba', hb', hcb'⟩ (hw.own cb hcb).2.1
    · subst hst
      exact absurd ⟨b, arc₁, hba, hb, hcb⟩ (hw.own cb hcb').2.1
    · exact h.distinct b b' arc₁ arc₂ cb hb hb' hcb hcb'
  · intro cb hidle
    refine hw.idle cb ?_ ?_
    · rintro ⟨b, arc', hba, hb, hcb⟩
      exact hidle b arc' (by rw [hrest b hba, hb]) hcb
    · intro hcb
      obtain ⟨strong, hst⟩ | ⟨-, hnone⟩ := ha
      · exact hidle a _ hst hcb
      · rw [hnone] at hcb
        cases hcb
  · intro b arc' hb
    obtain ⟨rfl, rfl⟩ | ⟨hba, hb⟩ := hcases b arc' hb
    · exact hw.work
    · exact h.work b arc' hb

/-- One call on a stream keeps every command buffer in order, if it is the last
release or no execution is refused in it. -/
theorem Lives.kept {k : StreamCall} (hc : Custody may P Q) (h : Kept P Q n t streams)
    (ha : streams a = some arc) (hl : Lives k n arc es (streams' a))
    (hr : may ∨ streams' a = none ∨ ∀ e ∈ es, refused e = false)
    (hrest : ∀ b, b ≠ a → streams' b = streams b) :
    Kept P Q (n + es.length) (t ++ es) streams' := by
  have hw := h.ward ha
  generalize hcell : streams' a = cell' at hl hr
  cases hl with
  | walked _ hsteps _ =>
    refine (hsteps.ward hc ?_ hw).kept h hrest (.inl ⟨_, hcell⟩)
    exact hr.imp_right fun hr ↦ hr.resolve_left (by simp)
  | @skipped strong st es _ hes =>
    have hw' : Ward P Q (elsewhere a streams) (n + es.length) (t ++ es) (advanced st) :=
      hw.aside (Nat.le_add_right _ _) (fun cb ↦ uses_of_quiet hes cb)
        (fun e he ↦ not_creates_of_quiet (hes e he)) rfl hw.work
    exact hw'.kept h hrest (.inl ⟨_, hcell⟩)
  | @dropped strong st st' o es fs tail _ hsmall _ _ hfs htail =>
    have hdrop := (hw.drop hc o hsmall hfs).quiet (Nat.le_add_right _ tail.length) htail
    rw [List.append_assoc t, Nat.add_assoc, ← List.length_append] at hdrop
    exact hdrop.kept h hrest (.inr ⟨hcell, rfl⟩)

def AllFresh (mem : Memory) : Prop :=
  ∀ b arc, mem.streams.cell b = some arc → arc.data.pendingCb = none ∧
    arc.data.hasPendingWork = false

theorem AllFresh.kept {mem : Memory} (hc : Custody may P Q) (h : AllFresh mem) :
    Kept P Q 0 [] mem.streams.cell := by
  refine ⟨fun _ _ ↦ rfl, ?_, ?_, fun cb _ ↦ hc.unused cb, ?_, by simp⟩
  · intro b arc cb hb hcb
    rw [(h b arc hb).1] at hcb
    cases hcb
  · intro b b' arc arc' cb hb _ hcb _
    rw [(h b arc hb).1] at hcb
    cases hcb
  · intro b arc hb hwork
    rw [(h b arc hb).2] at hwork
    cases hwork

theorem oneStream_allFresh : AllFresh oneStream := by
  intro b arc hb
  by_cases h : b = 1
  · subst h
    obtain rfl := Option.some.inj hb
    exact ⟨rfl, rfl⟩
  · rw [oneStream, Heap.put_cell_of_ne _ _ h] at hb
    cases hb

theorem Kept.aside (h : Kept P Q n t streams) (huses : ∀ cb : ℕ, uses cb es = [])
    (hmade : ∀ e ∈ es, creates e = false) (hn : n ≤ n') : Kept P Q n' (t ++ es) streams := by
  have hsame : ∀ cb : ℕ, uses cb (t ++ es) = uses cb t := fun cb ↦ by
    rw [uses_append, huses, List.append_nil]
  refine ⟨?_, ?_, h.distinct, ?_, h.work, ?_⟩
  · intro cb hcb
    rw [hsame]
    exact h.later cb (by omega)
  · intro b arc cb hb hcb
    obtain ⟨hlt, hp⟩ := h.pending b arc cb hb hcb
    exact ⟨by omega, by rwa [hsame]⟩
  · intro cb hidle
    rw [hsame]
    exact h.idle cb hidle
  · intro e he hcreates
    rw [hsame]
    obtain he | he := List.mem_append.mp he
    · exact h.made e he hcreates
    · simp [hmade e he] at hcreates

theorem Kept.quiet (h : Kept P Q n t streams) (hes : ∀ e ∈ es, Libhrx.quiet e.call = true)
    (hn : n ≤ n') : Kept P Q n' (t ++ es) streams :=
  h.aside (fun cb ↦ uses_of_quiet hes cb) (fun e he ↦ not_creates_of_quiet (hes e he)) hn

def LastRelease (mem : Memory) (k : StreamCall) : Prop :=
  ∃ a arc, k = .release a ∧ mem.streams.cell a = some arc ∧ arc.strong ≤ 1

theorem LastRelease.gone {mem : Memory} {k : StreamCall} {o : Outside} (h : LastRelease mem k)
    (ha : k.stream = some a) : (k.run.run o n mem).state.streams.cell a = none := by
  obtain ⟨b, ⟨strong, st⟩, rfl, hcell, hs⟩ := h
  obtain rfl : b = a := Option.some.inj ha
  have htail : Confined Memory.streams (fun c ↦ Libhrx.quiet c = true) (teardown st) :=
    teardown_confined (fun _ _ ↦ rfl) (fun _ _ ↦ rfl) st
  rw [run_release_last hs hcell, Outcome.after_state, (htail o _ _).1]
  exact Heap.put_cell_self _ _ _

theorem StreamCall.kept {mem : Memory} {k : StreamCall} {o : Outside} (hc : Custody may P Q)
    (h : Kept P Q n t mem.streams.cell) (hu : Usual n mem k o)
    (hr : may ∨ LastRelease mem k ∨ ∀ e ∈ (k.run.run o n mem).events, refused e = false) :
    Kept P Q (n + (k.run.run o n mem).events.length) (t ++ (k.run.run o n mem).events)
      (k.run.run o n mem).state.streams.cell := by
  obtain ⟨hlive, ho⟩ := hu
  cases ha : k.stream with
  | none =>
    obtain ⟨err, hrun⟩ := StreamCall.run_null n mem ho ha
    rw [hrun]
    exact h.quiet (by simp [payload, Libhrx.quiet]) (Nat.le_add_right _ _)
  | some a =>
    obtain ⟨arc, hcell⟩ := hlive a ha
    obtain ⟨hlives, hrest⟩ := StreamCall.run_lives (n := n) ho ha hcell
    refine hlives.kept hc h hcell ?_ hrest
    obtain hmay | hlast | hnone := hr
    · exact .inl hmay
    · exact .inr (.inl (hlast.gone ha))
    · exact .inr (.inr hnone)

end HrxSystem.Libhrx
