import HrxSystem.Libhrx.Buffer
import HrxSystem.Libhrx.StreamLives

namespace HrxSystem.Libhrx

open External Program Counting

def mapOf (e : Happened) : Option Obj :=
  match e.call with
  | .bufferMapRange b .. => if ok e then some b else none
  | _ => none

def unmapOf (e : Happened) : Option Obj :=
  match e.call with
  | .bufferUnmapRange m => some m
  | _ => none

/-- The HAL buffer that a call released or gave back to its allocator. -/
def givesBack (e : Happened) : Option Obj :=
  match e.call with
  | .bufferRelease b => b
  | .virtualMemoryRelease _ b => some b
  | _ => none

def unmaps (m : Obj) (t : Trace) : ℕ := t.countP fun e ↦ unmapOf e = some m

abbrev Buffers := ℕ → Option (Arc HrxBufferS)

def Outstanding (t : Trace) (b m : Obj) : Prop :=
  (∃ e ∈ t, e.pos = m ∧ mapOf e = some b) ∧ unmaps m t = 0

/-- Mappings and the buffers they are on: the outstanding mapping of a live buffer is the one in its
map cell, each mapping is unmapped once, and no HAL buffer is given back before that. -/
structure MapsBalanced (t : Trace) (buffers : Buffers) : Prop where
  stored : ∀ a arc, buffers a = some arc → ∀ m,
    Outstanding t arc.data.halBuffer m ↔ arc.data.map.map MappedRange.mapping = some m
  once : ∀ e ∈ t, ∀ b, mapOf e = some b → unmaps e.pos t ≤ 1 ∧
    ((∀ a arc, buffers a = some arc → arc.data.halBuffer ≠ b) → unmaps e.pos t = 1)
  before : ∀ t₁ r t₂ b, t = t₁ ++ r :: t₂ → givesBack r = some b → ∀ e ∈ t, mapOf e = some b →
    e ∈ t₁ ∧ unmaps e.pos t₁ = 1

/-- The outstanding mapping of each HAL buffer, and which of them were given back. -/
structure MapState where
  out : Obj → Option Obj
  back : Obj → Bool

def MapState.start : MapState := ⟨fun _ ↦ none, fun _ ↦ false⟩

/-- How HAL buffers are to be used: mapped when they are not, unmapped when they are, and given
back unmapped, after which they are not touched again. -/
inductive MapStep (q : MapState) (e : Happened) : MapState → Prop
  | aside (hmap : mapOf e = none) (hunmap : unmapOf e = none) (hback : givesBack e = none) :
    MapStep q e q
  | map {b : Obj} (hmap : mapOf e = some b) (hunmap : unmapOf e = none) (hback : givesBack e = none)
      (hout : q.out b = none) (hkept : q.back b = false) :
      MapStep q e { q with out := Function.update q.out b (some e.pos) }
  | unmap {b m : Obj} (hmap : mapOf e = none) (hunmap : unmapOf e = some m)
      (hback : givesBack e = none)
      (hout : q.out b = some m) : MapStep q e { q with out := Function.update q.out b none }
  | giveBack {b : Obj} (hmap : mapOf e = none) (hunmap : unmapOf e = none)
      (hback : givesBack e = some b)
      (hout : q.out b = none) (hkept : q.back b = false) :
      MapStep q e { q with back := Function.update q.back b true }

inductive Legal : Trace → MapState → Prop
  | start : Legal [] .start
  | step {t : Trace} {q q' : MapState} (e : Happened) : Legal t q → e.pos = t.length →
      MapStep q e q' →
      Legal (t ++ [e]) q'

variable {t es : Trace} {q : MapState} {b m : ℕ}

theorem unmaps_append (m : Obj) (t u : Trace) : unmaps m (t ++ u) = unmaps m t + unmaps m u :=
  List.countP_append ..

theorem unmaps_single (m : Obj) (e : Happened) :
    unmaps m [e] = if unmapOf e = some m then 1 else 0 := by
  simp [unmaps, List.countP_cons]

section Legal

theorem Legal.pos_lt (h : Legal t q) : ∀ e ∈ t, e.pos < t.length := by
  induction h with
  | start => simp
  | step e _ hpos _ ih =>
    intro f hf
    rw [List.length_append, List.length_singleton]
    obtain hf | hf := List.mem_append.mp hf
    · exact (ih f hf).trans (Nat.lt_succ_self _)
    · rw [List.mem_singleton.mp hf, hpos]
      exact Nat.lt_succ_self _

theorem Legal.pos_inj (h : Legal t q) : ∀ e ∈ t, ∀ f ∈ t, e.pos = f.pos → e = f := by
  induction h with
  | start => simp
  | @step t q q' g h hpos _ ih =>
    intro e he f hf heq
    obtain he | he := List.mem_append.mp he <;> obtain hf | hf := List.mem_append.mp hf
    · exact ih e he f hf heq
    · rw [List.mem_singleton] at hf
      have hlt := h.pos_lt e he
      rw [heq, hf, hpos] at hlt
      exact absurd hlt (lt_irrefl _)
    · rw [List.mem_singleton] at he
      have hlt := h.pos_lt f hf
      rw [← heq, he, hpos] at hlt
      exact absurd hlt (lt_irrefl _)
    · rw [List.mem_singleton.mp he, List.mem_singleton.mp hf]

theorem Legal.out_map (h : Legal t q) (hout : q.out b = some m) :
    ∃ e ∈ t, e.pos = m ∧ mapOf e = some b := by
  induction h generalizing b with
  | start => cases hout
  | @step t q q' e _ _ hstep ih =>
    have hold : ∀ {b'}, q.out b' = some m → ∃ f ∈ t ++ [e], f.pos = m ∧ mapOf f = some b' :=
      fun h' ↦
      let ⟨f, hf, hfm⟩ := ih h'
      ⟨f, List.mem_append_left _ hf, hfm⟩
    cases hstep with
    | aside _ _ _ | giveBack _ _ _ _ _ => exact hold hout
    | @map b' hmap _ _ _ _ =>
      dsimp only at hout
      by_cases hb : b = b'
      · subst hb
        rw [Function.update_self] at hout
        exact ⟨e, by simp, Option.some.inj hout, hmap⟩
      · rw [Function.update_of_ne hb] at hout
        exact hold hout
    | @unmap b' m' _ _ _ _ =>
      dsimp only at hout
      by_cases hb : b = b'
      · subst hb
        rw [Function.update_self] at hout
        cases hout
      · rw [Function.update_of_ne hb] at hout
        exact hold hout

theorem Legal.unmaps_later (h : Legal t q) (hm : t.length ≤ m) : unmaps m t = 0 := by
  induction h with
  | start => rfl
  | @step t q q' e h _ hstep ih =>
    rw [List.length_append, List.length_singleton] at hm
    rw [unmaps_append, ih (by omega), unmaps_single, Nat.zero_add, if_neg]
    intro hunmap
    cases hstep with
    | aside _ hnone _ | map _ hnone _ _ _ | giveBack _ hnone _ _ _ =>
      rw [hnone] at hunmap
      cases hunmap
    | unmap _ hsome _ hout =>
      obtain rfl := Option.some.inj (hsome.symm.trans hunmap)
      obtain ⟨f, hf, rfl, -⟩ := h.out_map hout
      have hlt := h.pos_lt f hf
      omega

/-- A mapping is unmapped once, if it is not outstanding. -/
theorem Legal.unmaps_eq (h : Legal t q) : ∀ e ∈ t, ∀ b, mapOf e = some b →
    unmaps e.pos t = if q.out b = some e.pos then 0 else 1 := by
  induction h with
  | start => simp
  | @step t q q' e h hpos hstep ih =>
    intro f hf b hmap
    rw [unmaps_append, unmaps_single]
    obtain hf | hf := List.mem_append.mp hf
    · rw [ih f hf b hmap]
      have hlt := h.pos_lt f hf
      cases hstep with
      | aside _ hunmap _ | giveBack _ hunmap _ _ _ => simp [hunmap]
      | @map b' _ hunmap _ hout _ =>
        by_cases hb : b = b'
        · subst hb
          simp [hunmap, hout, hpos, hlt.ne']
        · simp [hunmap, Function.update_of_ne hb]
      | @unmap b' m' _ hunmap _ hout =>
        by_cases hb : b = b'
        · subst hb
          by_cases hm : m' = f.pos <;> simp [hunmap, hout, hm]
        · have hne : m' ≠ f.pos := by
            rintro rfl
            obtain ⟨g, hg, hpos', hmap'⟩ := h.out_map hout
            rw [h.pos_inj g hg f hf hpos', hmap] at hmap'
            exact hb (Option.some.inj hmap')
          simp [hunmap, Function.update_of_ne hb, hne]
    · rw [List.mem_singleton.mp hf] at hmap ⊢
      rw [hpos, h.unmaps_later le_rfl]
      cases hstep with
      | aside hnone _ _ | unmap hnone _ _ _ | giveBack hnone _ _ _ _ =>
        rw [hnone] at hmap
        cases hmap
      | @map b' hsome hunmap _ _ _ =>
        obtain rfl := Option.some.inj (hsome.symm.trans hmap)
        simp [hunmap, hpos]

/-- All mappings of a buffer that was given back were made and unmapped before. -/
theorem Legal.before (h : Legal t q) : ∀ t₁ r t₂ b, t = t₁ ++ r :: t₂ → givesBack r = some b →
    q.back b = true ∧ ∀ e ∈ t, mapOf e = some b → e ∈ t₁ ∧ unmaps e.pos t₁ = 1 := by
  induction h with
  | start => intro t₁ r t₂ b ht; simp at ht
  | @step t q q' e h hpos hstep ih =>
    intro t₁ r t₂ b ht hr
    rcases List.eq_nil_or_concat t₂ with rfl | ⟨t₃, f, rfl⟩
    · obtain ⟨rfl, he⟩ := List.append_inj' ht rfl
      obtain rfl : e = r := by simpa using he
      cases hstep with
      | aside _ _ hback | map _ _ hback _ _ | unmap _ _ hback _ =>
        rw [hback] at hr
        cases hr
      | giveBack hmap _ hback hout _ =>
        obtain rfl := Option.some.inj (hback.symm.trans hr)
        refine ⟨by simp, fun g hg hmap' ↦ ?_⟩
        obtain hg | hg := List.mem_append.mp hg
        · exact ⟨hg, by rw [h.unmaps_eq g hg _ hmap', hout]; simp⟩
        · rw [List.mem_singleton.mp hg, hmap] at hmap'
          cases hmap'
    · rw [List.concat_eq_append, ← List.cons_append, ← List.append_assoc] at ht
      obtain ⟨ht', he⟩ := List.append_inj' ht rfl
      obtain rfl : e = f := by simpa using he
      obtain ⟨hback, hmaps⟩ := ih t₁ r t₃ b ht' hr
      cases hstep with
      | aside hnone _ _ | unmap hnone _ _ _ =>
        refine ⟨hback, fun g hg hmap ↦ ?_⟩
        obtain hg | hg := List.mem_append.mp hg
        · exact hmaps g hg hmap
        · rw [List.mem_singleton.mp hg, hnone] at hmap
          cases hmap
      | @giveBack b' hnone _ _ _ _ =>
        refine ⟨?_, fun g hg hmap ↦ ?_⟩
        · dsimp only
          by_cases hb : b = b'
          · rw [hb, Function.update_self]
          · rw [Function.update_of_ne hb, hback]
        · obtain hg | hg := List.mem_append.mp hg
          · exact hmaps g hg hmap
          · rw [List.mem_singleton.mp hg, hnone] at hmap
            cases hmap
      | @map b' hmap' _ _ _ hkept =>
        refine ⟨hback, fun g hg hmap ↦ ?_⟩
        obtain hg | hg := List.mem_append.mp hg
        · exact hmaps g hg hmap
        · rw [List.mem_singleton.mp hg, hmap'] at hmap
          obtain rfl := Option.some.inj hmap
          rw [hkept] at hback
          cases hback

end Legal

def objects (held : Option HrxBufferS) (buffers : Buffers) : Option ℕ → Option HrxBufferS
  | none => held
  | some a => (buffers a).map Arc.data

/-- Each HAL buffer belongs to one object, whose map cell holds its outstanding mapping. -/
structure Matches (q : MapState) (n : ℕ) (objs : Option ℕ → Option HrxBufferS) : Prop where
  own : ∀ i x, objs i = some x →
    q.out x.halBuffer = x.map.map MappedRange.mapping ∧ q.back x.halBuffer = false ∧ x.halBuffer < n
  apart : ∀ i j x y, objs i = some x → objs j = some y → x.halBuffer = y.halBuffer → i = j
  rest : ∀ b, (∀ i x, objs i = some x → x.halBuffer ≠ b) → q.out b = none
  later : ∀ b, n ≤ b → q.back b = false

/-- What holds of the trace and the buffers throughout a run. -/
def Tended (t : Trace) (objs : Option ℕ → Option HrxBufferS) : Prop :=
  ∃ q, Legal t q ∧ Matches q t.length objs

section Matches

variable {objs : Option ℕ → Option HrxBufferS} {i : Option ℕ} {x : HrxBufferS} {e : Happened}

theorem Matches.mono {n n' : ℕ} (h : Matches q n objs) (hn : n ≤ n') : Matches q n' objs where
  own i x hx := ⟨(h.own i x hx).1, (h.own i x hx).2.1, (h.own i x hx).2.2.trans_le hn⟩
  apart := h.apart
  rest := h.rest
  later b hb := h.later b (hn.trans hb)

theorem Tended.aside (h : Tended t objs) (hpos : e.pos = t.length) (hmap : mapOf e = none)
    (hunmap : unmapOf e = none) (hback : givesBack e = none) : Tended (t ++ [e]) objs := by
  obtain ⟨q, hlegal, hmatch⟩ := h
  exact ⟨q, hlegal.step e hpos (.aside hmap hunmap hback), hmatch.mono (by simp)⟩

theorem Matches.set_map {n : ℕ} (h : Matches q n objs) (hx : objs i = some x)
    (map : Option MappedRange) :
    Matches { q with out := Function.update q.out x.halBuffer (map.map MappedRange.mapping) } n
      (Function.update objs i (some { x with map := map })) := by
  have hobj : ∀ j y, Function.update objs i (some { x with map := map }) j = some y →
      ∃ y', objs j = some y' ∧ y'.halBuffer = y.halBuffer ∧
        (j = i ∧ y = { x with map := map } ∨ j ≠ i ∧ y = y') := by
    intro j y hy
    by_cases hj : j = i
    · rw [hj, Function.update_self] at hy
      cases hy
      exact ⟨x, hj ▸ hx, rfl, .inl ⟨hj, rfl⟩⟩
    · rw [Function.update_of_ne hj] at hy
      exact ⟨y, hy, rfl, .inr ⟨hj, rfl⟩⟩
  refine ⟨?_, ?_, ?_, h.later⟩
  · intro j y hy
    obtain ⟨y', hy', -, ⟨rfl, rfl⟩ | ⟨hj, rfl⟩⟩ := hobj j y hy
    · exact ⟨Function.update_self .., (h.own j x hx).2⟩
    · refine ⟨?_, (h.own j y hy').2⟩
      dsimp only
      rw [Function.update_of_ne fun heq ↦ hj (h.apart j i y x hy' hx heq)]
      exact (h.own j y hy').1
  · intro j k y z hy hz heq
    obtain ⟨y', hy', hyb, -⟩ := hobj j y hy
    obtain ⟨z', hz', hzb, -⟩ := hobj k z hz
    exact h.apart j k y' z' hy' hz' (by rw [hyb, hzb, heq])
  · intro b hb
    have hne : b ≠ x.halBuffer := by
      rintro rfl
      exact hb i _ (Function.update_self ..) rfl
    dsimp only
    rw [Function.update_of_ne hne]
    refine h.rest b fun j y hy hyb ↦ ?_
    by_cases hj : j = i
    · rw [hj, hx] at hy
      cases hy
      exact hne hyb.symm
    · exact hb j y (by rw [Function.update_of_ne hj, hy]) hyb

theorem Tended.mapped (h : Tended t objs) (hx : objs i = some x) (hnone : x.map = none)
    (hpos : e.pos = t.length) {access offset length : ℕ}
    (hcall : e.call = .bufferMapRange x.halBuffer access offset length) (hok : ok e = true)
    (ptr : ℕ) :
    Tended (t ++ [e]) (Function.update objs i (some { x with map := some ⟨e.pos, ptr⟩ })) := by
  obtain ⟨q, hlegal, hmatch⟩ := h
  obtain ⟨hout, hback, -⟩ := hmatch.own i x hx
  rw [hnone] at hout
  refine ⟨_, hlegal.step e hpos (.map (b := x.halBuffer) ?_ ?_ ?_ hout hback),
    (hmatch.set_map hx (some ⟨e.pos, ptr⟩)).mono (by simp)⟩
  · simp [mapOf, hcall, hok]
  · simp [unmapOf, hcall]
  · simp [givesBack, hcall]

theorem Tended.unmapped {m : MappedRange} (h : Tended t objs) (hx : objs i = some x)
    (hm : x.map = some m) (hpos : e.pos = t.length) (hcall : e.call = .bufferUnmapRange m.mapping) :
    Tended (t ++ [e]) (Function.update objs i (some { x with map := none })) := by
  obtain ⟨q, hlegal, hmatch⟩ := h
  obtain ⟨hout, -, -⟩ := hmatch.own i x hx
  rw [hm] at hout
  refine ⟨_, hlegal.step e hpos (.unmap (b := x.halBuffer) (m := m.mapping) ?_ ?_ ?_ hout),
    (hmatch.set_map hx none).mono (by simp)⟩
  · simp [mapOf, hcall]
  · simp [unmapOf, hcall]
  · simp [givesBack, hcall]

theorem Tended.givenBack (h : Tended t objs) (hx : objs i = some x) (hnone : x.map = none)
    (hpos : e.pos = t.length) (hmap : mapOf e = none) (hunmap : unmapOf e = none)
    (hback : givesBack e = some x.halBuffer) :
    Tended (t ++ [e]) (Function.update objs i none) := by
  obtain ⟨q, hlegal, hmatch⟩ := h
  obtain ⟨hout, hkept, hlt⟩ := hmatch.own i x hx
  rw [hnone] at hout
  have hobj : ∀ j y, Function.update objs i none j = some y → j ≠ i ∧ objs j = some y := by
    intro j y hy
    have hj : j ≠ i := by
      rintro rfl
      simp at hy
    exact ⟨hj, by rwa [Function.update_of_ne hj] at hy⟩
  refine ⟨_, hlegal.step e hpos (.giveBack hmap hunmap hback hout hkept), ?_, ?_, ?_, ?_⟩
  · intro j y hy
    obtain ⟨hj, hy⟩ := hobj j y hy
    obtain ⟨hyout, hykept, hylt⟩ := hmatch.own j y hy
    refine ⟨hyout, ?_, by simpa using hylt.trans (Nat.lt_succ_self _)⟩
    dsimp only
    rw [Function.update_of_ne fun heq ↦ hj (hmatch.apart j i y x hy hx heq)]
    exact hykept
  · intro j k y z hy hz
    exact hmatch.apart j k y z (hobj j y hy).2 (hobj k z hz).2
  · intro b hb
    by_cases hbx : b = x.halBuffer
    · rw [hbx]
      exact hout
    · refine hmatch.rest b fun j y hy hyb ↦ ?_
      by_cases hj : j = i
      · rw [hj, hx] at hy
        cases hy
        exact hbx hyb.symm
      · exact hb j y (by rw [Function.update_of_ne hj, hy]) hyb
  · intro b hb
    rw [List.length_append, List.length_singleton] at hb
    dsimp only
    rw [Function.update_of_ne (hlt.trans_le (Nat.le_of_succ_le hb)).ne']
    exact hmatch.later b (Nat.le_of_succ_le hb)

theorem Tended.created (h : Tended t objs) (hi : objs i = none) (hpos : e.pos = t.length)
    (hmap : mapOf e = none) (hunmap : unmapOf e = none) (hback : givesBack e = none)
    (hx : x.map = none) (hhal : x.halBuffer = e.pos) :
    Tended (t ++ [e]) (Function.update objs i (some x)) := by
  obtain ⟨q, hlegal, hmatch⟩ := h
  have hnew : ∀ j y, objs j = some y → y.halBuffer ≠ x.halBuffer := by
    intro j y hy
    have hlt := (hmatch.own j y hy).2.2
    rw [hhal, hpos]
    exact hlt.ne
  have hobj : ∀ j y, Function.update objs i (some x) j = some y → j = i ∧ y = x ∨ j ≠ i ∧
      objs j = some y := by
    intro j y hy
    by_cases hj : j = i
    · rw [hj, Function.update_self] at hy
      exact .inl ⟨hj, (Option.some.inj hy).symm⟩
    · rw [Function.update_of_ne hj] at hy
      exact .inr ⟨hj, hy⟩
  refine ⟨q, hlegal.step e hpos (.aside hmap hunmap hback), ?_, ?_, ?_, ?_⟩
  · intro j y hy
    obtain ⟨-, rfl⟩ | ⟨-, hy⟩ := hobj j y hy
    · refine ⟨?_, hmatch.later _ (by rw [hhal, hpos]), by simp [hhal, hpos]⟩
      rw [hx, hmatch.rest _ hnew]
      rfl
    · exact (hmatch.mono (by simp)).own j y hy
  · intro j k y z hy hz heq
    obtain ⟨rfl, rfl⟩ | ⟨-, hy'⟩ := hobj j y hy <;> obtain ⟨rfl, rfl⟩ | ⟨-, hz'⟩ := hobj k z hz
    · rfl
    · exact absurd heq.symm (hnew k z hz')
    · exact absurd heq (hnew j y hy')
    · exact hmatch.apart j k y z hy' hz' heq
  · intro b hb
    refine hmatch.rest b fun j y hy ↦ hb j y ?_
    rw [Function.update_of_ne, hy]
    rintro rfl
    rw [hi] at hy
    cases hy
  · intro b hb
    exact hmatch.later b (by rw [List.length_append] at hb; omega)

theorem Tended.reindex (h : Tended t objs) (f : Option ℕ ≃ Option ℕ) : Tended t (objs ∘ f) := by
  obtain ⟨q, hlegal, hmatch⟩ := h
  refine ⟨q, hlegal, fun i x ↦ hmatch.own (f i) x, ?_, ?_, hmatch.later⟩
  · intro i j x y hx hy heq
    exact f.injective (hmatch.apart _ _ x y hx hy heq)
  · intro b hb
    refine hmatch.rest b fun i x hx ↦ hb (f.symm i) x ?_
    simpa using hx

theorem Tended.balanced {buffers : Buffers} (h : Tended t (objects none buffers)) :
    MapsBalanced t buffers := by
  obtain ⟨q, hlegal, hmatch⟩ := h
  have hown : ∀ a arc, buffers a = some arc →
      q.out arc.data.halBuffer = arc.data.map.map MappedRange.mapping :=
    fun a arc harc ↦ (hmatch.own (some a) arc.data (by simp [objects, harc])).1
  refine ⟨?_, ?_, fun t₁ r t₂ b ht hr ↦ (hlegal.before t₁ r t₂ b ht hr).2⟩
  · intro a arc harc m
    rw [← hown a arc harc]
    constructor
    · rintro ⟨⟨e, he, rfl, hmap⟩, hzero⟩
      rw [hlegal.unmaps_eq e he _ hmap] at hzero
      by_contra hne
      simp [hne] at hzero
    · intro hout
      obtain ⟨e, he, rfl, hmap⟩ := hlegal.out_map hout
      exact ⟨⟨e, he, rfl, hmap⟩, by rw [hlegal.unmaps_eq e he _ hmap, hout]; simp⟩
  · intro e he b hmap
    rw [hlegal.unmaps_eq e he b hmap]
    refine ⟨by split <;> omega, fun hgone ↦ ?_⟩
    rw [hmatch.rest b]
    · simp
    · intro i x hx
      cases i with
      | none => cases hx
      | some a =>
        simp only [objects, Option.map_eq_some_iff] at hx
        obtain ⟨arc, harc, rfl⟩ := hx
        exact hgone a arc harc

end Matches

end HrxSystem.Libhrx
