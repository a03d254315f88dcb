import HrxSystem.Libhrx.MappedBuffers
import HrxSystem.Libhrx.Releases
import HrxSystem.Libhrx.StreamCalls

namespace HrxSystem.Libhrx

open External Program Counting HrxStreamS

variable {a b h : Multiset Res} {e : Multiset Ref} {F : Globals → Prop} {v : Watch}
  {p : Outside → Prop}

section Focus

variable {T : Type} (w : Owner T) {R : Standing Memory} {mem : Memory} {x : ℕ} {arc : Arc T}
  {obj : T}

/-- A condition that does not notice when an object changes that keeps its handle and what it
holds. -/
def Lasting (R : Standing Memory) : Prop :=
  ∀ t mem x arc obj, (w.kind.heap mem).cell x = some arc → w.name x obj = w.name x arc.data →
    w.refs obj = w.refs arc.data → w.parts obj = w.parts arc.data → R.holds t mem →
    R.holds t (w.kind.store ((w.kind.heap mem).modify x fun _ ↦ obj) mem)

theorem owning_lasting (hdevices : ∀ mem hp, (w.kind.store hp mem).devices = mem.devices)
    (hknown : ∀ K x obj, w.known K x obj) : Lasting w (owning e F v) := by
  intro t mem x arc obj hcell hname hrefs hparts hO
  obtain ⟨hb, -⟩ := w.modify_balanced hcell hO.balanced hname hrefs hparts
  exact w.owning_store hO hb (fun _ _ _ ↦ .inl (hknown _ _ _)) (.inl hdevices)

theorem alive_lasting {r : Ref} (hR : Lasting w R) : Lasting w (alive r R) := by
  rintro t mem x arc obj hcell hname hrefs hparts ⟨hlive, hholds⟩
  refine ⟨?_, hR t mem x arc obj hcell hname hrefs hparts hholds⟩
  rw [w.cellOf_modify hcell hname]
  exact hlive

def beside (mem : Memory) (x : ℕ) (obj : T) (R : Standing Memory) : Standing T where
  holds t y :=
    (w.name x y = w.name x obj ∧ w.refs y = w.refs obj ∧ w.parts y = w.parts obj) ∧ R.holds t mem
  snoc _ _ _ h := ⟨h.1, R.snoc _ _ _ h.2⟩

theorem booked_focus {α : Type} {q : α → Multiset Res} {m : Hrx T α} (hR : Lasting w R)
    (hcell : (w.kind.heap mem).cell x = some arc)
    (hm : Triple p (Booked (fun _ ↦ estate mem) a b h (beside w mem x arc.data R)) m
      (fun r ↦ Booked (fun _ ↦ estate mem) a b (q r + h) (beside w mem x arc.data R))) :
    Triple p (Booked estate a b h (R.at_ mem))
      (focus arc.data (fun y mem ↦ w.kind.store ((w.kind.heap mem).modify x fun _ ↦ y) mem) m)
      (fun r ↦ Booked estate a b (q r + h) R) := by
  refine .focus fun mem' ↦ ?_
  rintro o t y ho ⟨rfl, hentries, rfl, hholds⟩
  obtain ⟨hentries', ⟨hname, hrefs, hparts⟩, hholds'⟩ :=
    hm o t arc.data ho ⟨hentries, ⟨rfl, rfl, rfl⟩, hholds⟩
  refine ⟨?_, hR _ _ x arc _ hcell hname hrefs hparts hholds'⟩
  have hmod := w.estate_put mem' x (some ⟨arc.strong, (m.run o t.length arc.data).state⟩)
  rw [hcell, Heap.share_some, Heap.share_some, hparts, add_left_inj] at hmod
  have hput : (w.kind.heap mem').modify x (fun _ ↦ (m.run o t.length arc.data).state) =
      (w.kind.heap mem').put x (some ⟨arc.strong, (m.run o t.length arc.data).state⟩) := by
    simp only [Heap.modify, hcell]
  rw [Entries, hput, hmod]
  exact hentries'

/-- A program that keeps `g` of an object, and so its handle and what it holds, and hands out or
takes back nothing. -/
theorem beside_confined {τ α : Type} {g : T → τ} {m : Hrx T α} {W : Multiset Res}
    (hg : ∀ y z, g y = g z → w.name x y = w.name x z ∧ w.refs y = w.refs z ∧ w.parts y = w.parts z)
    (hm : Confined g (fun c ↦ idle c = true) m) :
    Triple p (Booked (fun _ ↦ W) a b h (beside w mem x obj R)) m
      (fun _ ↦ Booked (fun _ ↦ W) a b h (beside w mem x obj R)) := by
  intro o t y ho hA
  have hkeeps := Triple.of_confined (I := fun t z ↦
    Entries (fun _ : Unit ↦ W) a b h t () ∧ z = g y ∧ R.holds t mem) hm
    (fun t ev z hz _ hidle ↦ ⟨hz.1.idle hidle, hz.2.1, R.snoc t ev mem hz.2.2⟩) o t y ho
    ⟨hA.1, rfl, hA.2.2⟩
  obtain ⟨hname, hrefs, hparts⟩ := hg _ _ hkeeps.2.1
  obtain ⟨hname', hrefs', hparts'⟩ := hA.2.1
  exact ⟨hkeeps.1, ⟨hname.trans hname', hrefs.trans hrefs', hparts.trans hparts'⟩, hkeeps.2.2⟩

end Focus

section Streams

variable {α : Type} {R : Standing Memory}

theorem streams_lasting : Lasting .streams (owning e F v) :=
  owning_lasting _ (fun _ _ ↦ rfl) fun _ _ _ ↦ trivial

theorem onStream_booked {q : α → Multiset Res} {m : Hrx HrxStreamS α} (s : ℕ) (dead : α)
    (hR : Lasting .streams R) (hdead : q dead = 0)
    (hm : ∀ mem st, Triple p (Booked (fun _ ↦ estate mem) a b h (beside .streams mem s st R)) m
      (fun r ↦ Booked (fun _ ↦ estate mem) a b (q r + h) (beside .streams mem s st R))) :
    Triple p (Booked estate a b h R) (onStream s dead m)
      (fun r ↦ Booked estate a b (q r + h) R) := by
  refine booked_state.bind fun mem ↦ ?_
  cases hcell : mem.streams.cell s with
  | none =>
    refine .pure fun t x hA ↦ ?_
    rw [hdead, zero_add]
    exact ⟨hA.1, hA.2.2⟩
  | some arc => exact booked_focus .streams hR hcell (hm mem arc.data)

theorem onStream_dead {m : Hrx HrxStreamS α} {mem : Memory} {s : ℕ}
    (hcell : mem.streams.cell s = none) (dead : α) :
    Triple p (Booked estate a b h (R.at_ mem)) (onStream s dead m)
      (fun r t x ↦ r = dead ∧ Booked estate a b h R t x) := by
  rintro o t x ho ⟨hentries, rfl, hholds⟩
  have hrun : (onStream s dead m).run o t.length x = ⟨dead, x, []⟩ := by simp [onStream, hcell]
  rw [hrun, List.append_nil]
  exact ⟨rfl, hentries, hholds⟩

theorem streams_keep {s : ℕ} (y z : HrxStreamS)
    (hyz : (y.semaphore, y.device) = (z.semaphore, z.device)) :
    Owner.streams.name s y = Owner.streams.name s z ∧ Owner.streams.refs y = Owner.streams.refs z ∧
      Owner.streams.parts y = Owner.streams.parts z := by
  obtain ⟨hsemaphore, hdevice⟩ := Prod.mk.inj hyz
  refine ⟨rfl, ?_, rfl⟩
  change HrxStreamS.refs y = HrxStreamS.refs z
  rw [HrxStreamS.refs, HrxStreamS.refs, hsemaphore, hdevice]

theorem onStream_settled {m : Hrx HrxStreamS α} (s : ℕ) (dead : α) (hR : Lasting .streams R)
    (hm : Settled m) :
    Triple p (Booked estate a b h R) (onStream s dead m) (fun _ ↦ Booked estate a b h R) := by
  have hbooked := onStream_booked (p := p) (a := a) (b := b) (h := h) (q := fun _ ↦ 0) s dead hR rfl
    fun mem st ↦ (beside_confined .streams streams_keep hm).mono (fun _ _ hA ↦ hA) fun _ _ _ hA ↦ by
      rw [zero_add]
      exact hA
  simpa only [zero_add] using hbooked

theorem error_settled (code : HrxStatusCode) (message : String) : Settled (hrxError code message) :=
  hrxError_calls (fun _ ↦ rfl) code message

theorem beginCb_settled : Settled beginCb := by
  refine .bind .state fun _ ↦ .ite (.pure _) (.bind (.call rfl) fun e ↦ .ite (status_settled _) ?_)
  refine .bind (.call rfl) fun b ↦ .ite (.bind (.call rfl) fun _ ↦ ?_) ?_
  · exact .bind (.update fun _ ↦ rfl) fun _ ↦ status_settled _
  · exact .bind (.update fun _ ↦ rfl) fun _ ↦ .pure _

theorem record_settled (command : Option Command) : Settled (record command) := by
  refine beginCb_settled.bind fun s ↦ .ite (.pure _) ?_
  cases command with
  | none => exact error_settled _ _
  | some c =>
    refine .bind .state fun _ ↦ .bind (.call rfl) fun e ↦ .ite (status_settled _) ?_
    refine .bind (.bind .state fun _ ↦ .call rfl) fun b ↦ .ite (status_settled _) ?_
    exact .bind (.update fun _ ↦ rfl) fun _ ↦ .pure _

theorem executionBarrier_settled : Settled executionBarrier := by
  refine beginCb_settled.bind fun s ↦ .ite (.pure _)
    (.bind .state fun _ ↦ .bind (.call rfl) fun e ↦ ?_)
  exact .ite (status_settled _) (.bind (.update fun _ ↦ rfl) fun _ ↦ .pure _)

theorem wait_settled : Settled wait :=
  .bind .state fun _ ↦ .ite (.pure _) (semaphoreWait_settled _ _ _)

theorem synchronize_settled : Settled synchronize :=
  flushInner_settled.bind fun _ ↦ .ite (.pure _) wait_settled

theorem query_settled : Settled query :=
  .bind .state fun _ ↦ .ite (.pure _)
    (.bind (.bind (.call rfl) fun _ ↦ .bind (status_settled _) fun _ ↦ .pure _)
    fun _ ↦ .ite (.pure _) (.pure _))

theorem waitOn_settled (semaphore : SemaphorePtr) (value : ℕ) :
    Settled (waitOn semaphore value) := by
  refine flushInner_settled.bind fun _ ↦ .ite (.pure _)
    (.bind .state fun _ ↦ .bind (.call rfl) fun _ ↦ ?_)
  exact .ite (status_settled _) (.bind (.update fun _ ↦ rfl) fun _ ↦ .pure _)

/-- The calls of `stream.rs` that use a stream, and neither make nor retain nor release anything. -/
def StreamCall.uses : StreamCall → Bool
  | bufferAllocate .. | retain _ | release _ => false
  | _ => true

theorem booked_returning {m : Hrx Memory HrxStatus}
    (hm : Triple p (Booked estate a b h R) m (fun _ ↦ Booked estate a b h R)) :
    Triple p (Booked estate a b h R) (returning m) (fun _ ↦ Booked estate a b h R) :=
  hm.bind fun _ ↦ .pure fun _ _ hA ↦ hA

theorem booked_refused (code : HrxStatusCode) (message : String) (w : Written) :
    Triple p (Booked estate a b h R) (do return ⟨← hrxError code message, w⟩ : Hrx Memory Returned)
      (fun _ ↦ Booked estate a b h R) :=
  (booked_confined (hrxError_calls (fun _ ↦ rfl) code message)).bind fun _ ↦ .pure fun _ _ hA ↦ hA

theorem StreamCall.run_booked {k : StreamCall} (hk : k.uses = true) (hR : Lasting .streams R) :
    Triple p (Booked estate a b h R) k.run (fun _ ↦ Booked estate a b h R) := by
  cases k with
  | bufferAllocate | retain | release => cases hk
  | fillBuffer stream buffer offset size pattern patternSize =>
    simp only [run, hrxStreamFillBuffer]
    split
    · exact booked_returning (onStream_settled _ _ hR (record_settled _))
    · exact booked_refused _ _ _
  | copyBuffer stream src srcOffset dst dstOffset size =>
    simp only [run, hrxStreamCopyBuffer]
    split
    · exact booked_returning (onStream_settled _ _ hR (record_settled _))
    · exact booked_refused _ _ _
  | updateBuffer stream hostData hostDataSize dst dstOffset =>
    simp only [run, hrxStreamUpdateBuffer]
    split
    · exact booked_returning (onStream_settled _ _ hR (record_settled _))
    · exact booked_refused _ _ _
  | dispatch stream args =>
    simp only [run, hrxStreamDispatch]
    split
    · split
      · exact booked_refused _ _ _
      · exact booked_returning (onStream_settled _ _ hR (record_settled _))
    · exact booked_refused _ _ _
  | waitOn stream position =>
    simp only [run, hrxStreamWaitOn]
    split
    · exact booked_refused _ _ _
    · exact booked_refused _ _ _
    · exact booked_returning (onStream_settled _ _ hR (waitOn_settled _ _))
  | executionBarrier stream =>
    cases stream with
    | none => exact booked_refused _ _ _
    | some s => exact booked_returning (onStream_settled _ _ hR executionBarrier_settled)
  | flush stream =>
    cases stream with
    | none => exact booked_refused _ _ _
    | some s => exact booked_returning (onStream_settled _ _ hR flushInner_settled)
  | synchronize stream =>
    cases stream with
    | none => exact booked_refused _ _ _
    | some s => exact booked_returning (onStream_settled _ _ hR synchronize_settled)
  | wait stream =>
    cases stream with
    | none => exact booked_refused _ _ _
    | some s => exact booked_returning (onStream_settled _ _ hR wait_settled)
  | query stream out =>
    simp only [run, hrxStreamQuery]
    split
    · exact onStream_settled _ _ hR query_settled
    · exact booked_refused _ _ _
  | getSemaphore stream out =>
    simp only [run, hrxStreamGetSemaphore]
    split
    · exact onStream_settled _ _ hR (.bind .state fun _ ↦ .pure _)
    · exact booked_refused _ _ _
  | getDevice stream out =>
    simp only [run, hrxStreamGetDevice]
    split
    · exact onStream_settled _ _ hR (.bind .state fun _ ↦ .pure _)
    · exact booked_refused _ _ _
  | getTimelinePosition stream out =>
    simp only [run, hrxStreamGetTimelinePosition]
    split
    · exact onStream_settled _ _ hR (.bind .state fun _ ↦ .pure _)
    · exact booked_refused _ _ _
  | advanceTimeline stream out =>
    simp only [run, hrxStreamAdvanceTimeline]
    split
    · exact onStream_settled _ _ hR
        (.bind (.update fun _ ↦ rfl) fun _ ↦ .bind .state fun _ ↦ .pure _)
    · exact booked_refused _ _ _

end Streams

section Buffers

variable {R : Standing Memory}

theorem buffers_lasting : Lasting .buffers (owning e F v) :=
  owning_lasting _ (fun _ _ ↦ rfl) fun _ _ _ ↦ trivial

theorem buffers_keep {x : ℕ} (y z : HrxBufferS)
    (hyz : (y.halBuffer, y.halPool, y.device) = (z.halBuffer, z.halPool, z.device)) :
    Owner.buffers.name x y = Owner.buffers.name x z ∧ Owner.buffers.refs y = Owner.buffers.refs z ∧
      Owner.buffers.parts y = Owner.buffers.parts z := by
  simp only [Prod.mk.injEq] at hyz
  obtain ⟨hbuffer, hpool, hdevice⟩ := hyz
  simp only [Owner.buffers, HrxBufferS.ptr, HrxBufferS.refs, HrxBufferS.parts, hbuffer, hpool,
    hdevice, and_self]

/-- A program on a buffer that keeps what the buffer holds, and hands out or takes back nothing. -/
abbrev Undisturbing {α : Type} (m : Hrx HrxBufferS α) : Prop :=
  Confined (fun x ↦ (x.halBuffer, x.halPool, x.device)) (fun c ↦ idle c = true) m

theorem onBuffer_booked {m : Hrx HrxBufferS Returned} (x : ℕ) (hR : Lasting .buffers R)
    (hm : Undisturbing m) :
    Triple p (Booked estate a b h R) (onBuffer x m) (fun _ ↦ Booked estate a b h R) := by
  refine booked_state.bind fun mem ↦ ?_
  cases hcell : mem.buffers.cell x with
  | none => exact .pure fun t mem hA ↦ ⟨hA.1, hA.2.2⟩
  | some arc =>
    have hfocus :=
      booked_focus (p := p) (a := a) (b := b) (h := h) (q := fun _ : Returned ↦ 0) .buffers hR hcell
      ((beside_confined .buffers buffers_keep hm).mono (fun _ _ hA ↦ hA) fun _ _ _ hA ↦ by
        rw [zero_add]
        exact hA)
    simp only [zero_add] at hfocus
    exact hfocus

/-- The calls that use a buffer, and neither make nor retain nor release one. -/
def BufferCall.uses : BufferCall → Bool
  | map .. | unmap _ | getDevicePtr .. => true
  | _ => false

theorem BufferCall.run_booked {k : BufferCall} (hk : k.uses = true) (hR : Lasting .buffers R) :
    Triple p (Booked estate a b h R) k.run (fun _ ↦ Booked estate a b h R) := by
  have hstatus : ∀ s, Undisturbing (hrxStatusFromIree s) :=
    fun s ↦ hrxStatusFromIree_calls (fun _ ↦ rfl) s
  have herror : ∀ code message, Undisturbing (hrxError code message) := fun code message ↦
    hrxError_calls (fun _ ↦ rfl) code message
  cases k with
  | allocateBuffer | importBuffer | virtualMemoryReserve | allocate | retain | release
  | virtualMemoryRelease => cases hk
  | map buffer flags offset size mappedPtr =>
    simp only [run, hrxBufferMap]
    split
    · refine onBuffer_booked _ hR
        (.bind .state fun _ ↦ .ite (.bind (herror _ _) fun _ ↦ .pure _) ?_)
      refine .bind (.call rfl) fun _ ↦ .ite (.bind (hstatus _) fun _ ↦ .pure _) ?_
      exact .bind (.update fun _ ↦ rfl) fun _ ↦ .pure _
    · exact booked_refused _ _ _
  | unmap buffer =>
    cases buffer with
    | none => exact booked_refused _ _ _
    | some x =>
      refine onBuffer_booked _ hR (.bind .state fun buf ↦ .bind (.update fun _ ↦ rfl) fun _ ↦ ?_)
      cases buf.map with
      | none => exact .pure _
      | some m => exact .bind (.call rfl) fun _ ↦ .bind (hstatus _) fun _ ↦ .pure _
  | getDevicePtr buffer devicePtr =>
    simp only [run, hrxBufferGetDevicePtr]
    split
    · refine onBuffer_booked _ hR (.bind .state fun buf ↦ ?_)
      cases buf.map with
      | some m => exact .pure _
      | none =>
        refine .bind (.call rfl) fun _ ↦ .ite (.bind (.update fun _ ↦ rfl) fun _ ↦ .pure _) ?_
        exact .bind (herror _ _) fun _ ↦ .pure _
    · exact booked_refused _ _ _

end Buffers

section Invoke

variable {R : Standing Memory} {mem : Memory}

theorem hrxFunctionInvoke_booked (module_ : HrxModule) (function : HrxFunction)
    (args rets : Option ℕ) :
    Triple p (Booked estate a b h R) (hrxFunctionInvoke module_ function args rets)
      (fun _ ↦ Booked estate a b h R) := by
  have hfail : ∀ message, Aside (fun c ↦ idle c = true)
      (do return ⟨← hrxError .invalidArgument message, .nothing⟩ : Hrx Memory Returned) :=
      fun message ↦
    .bind (hrxError_calls (fun _ ↦ rfl) _ _) fun _ ↦ .pure _
  refine booked_confined ?_
  unfold hrxFunctionInvoke
  split
  · refine .bind .state fun mem ↦ ?_
    split
    · exact .pure _
    · refine .ite (hfail _) (.bind (.call rfl) fun _ ↦ ?_)
      exact .bind (hrxStatusFromIree_calls (fun _ ↦ rfl) _) fun _ ↦ .pure _
  · exact hfail _

end Invoke

end HrxSystem.Libhrx
