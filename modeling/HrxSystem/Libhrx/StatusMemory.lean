import HrxSystem.Libhrx.StatusCodes
import HrxSystem.Threads.Blocks

namespace HrxSystem.Libhrx.StatusMemory

open External Program Threads

/-- What `malloc`, `strdup` and IREE allocate. The fields of a new payload hold nothing yet. -/
inductive Block
  | status (code : Option ℤ) (message : Option (Option Obj))
  | text (s : String)
  | iree (bytes : List UInt8)
deriving DecidableEq

abbrev StatusProgram (α : Type) := Blocks Obj Block α

abbrev HrxStatusPtr := Option Obj

/-- `iree_status_t`: its code, which is in the pointer, and what the pointer points at, if
anything. -/
abbrev IreeStatusPtr := Option (ℤ × Option Obj)

/-- The functions of IREE that make, tell and free statuses, and free what they have told. What they
find in the world is `W`. With the pointer to a text, `toString` returns the text that it has put
there. -/
structure IreeStatuses (W : Type) where
  allocateF : W → ℤ → String → StatusProgram IreeStatusPtr
  toString : W → IreeStatusPtr → StatusProgram (Option (Obj × String))
  free : IreeStatusPtr → StatusProgram Unit
  allocatorFree : Obj → StatusProgram Unit

/-- What IREE documents of these functions. Statuses have the blocks `blocks`: a new one has the
code that it is made with, telling it allocates the text, and freeing it frees its blocks and no
others. -/
structure IreeStatuses.Documented {W : Type} (iree : IreeStatuses W)
    (blocks : IreeStatusPtr → Multiset (Obj × Block) → Prop) : Prop where
  ok : ∀ own, blocks none own ↔ own = 0
  allocated : ∀ w code message, (iree.allocateF w code message).Within
    (fun i o ↦ i.map Prod.fst = wireCode code ∧ blocks i o) 0
  told : ∀ w i own, blocks i own → (iree.toString w i).Within
    (fun m o ↦ o = (m.elim 0 fun e ↦ {(e.1, .text e.2)}) + own) own
  freed : ∀ i own, blocks i own → (iree.free i).Within (fun _ o ↦ o = 0) own
  textFreed : ∀ p t, (iree.allocatorFree p).Within (fun _ o ↦ o = 0) {(p, .text t)}

/-- Whether `malloc` has room for the payload and `strdup` for the message. -/
structure Room where
  payload : Bool
  copy : Bool

inductive CStr
  | literal (s : String)
  | block (p : Obj)

variable {W α : Type} (iree : IreeStatuses W)

section Functions

def setCode (code : ℤ) : Block → Block
  | .status _ message => .status (some code) message
  | b => b

def setMessage (message : Option Obj) : Block → Block
  | .status code _ => .status code (some message)
  | b => b

def readCode (s : Obj) (k : ℤ → StatusProgram α) : StatusProgram α :=
  .read s fun
    | .status (some code) _ => k code
    | _ => .stuck

def readMessage (s : Obj) (k : Option Obj → StatusProgram α) : StatusProgram α :=
  .read s fun
    | .status _ (some message) => k message
    | _ => .stuck

def readText : CStr → (String → StatusProgram α) → StatusProgram α
  | .literal t, k => k t
  | .block p, k => .read p fun
    | .text t => k t
    | _ => .stuck

def strdup (s : CStr) (room : Bool) (k : Option Obj → StatusProgram α) : StatusProgram α :=
  readText s fun t ↦ if room then .alloc (.text t) fun q ↦ k (some q) else k none

def libcFree : Option Obj → StatusProgram α → StatusProgram α
  | none, k => k
  | some p, k => .free p k

def messageOr : Option Obj → CStr
  | none => .literal "(no message)"
  | some q => .block q

def hrxMakeStatus (code : ℤ) (message : Option CStr) (room : Room) : StatusProgram HrxStatusPtr :=
  if code = 0 then .done none
  else if room.payload then
    .alloc (.status none none) fun s ↦ .modify s (setCode code) <|
    match message with
    | none => .modify s (setMessage none) (.done (some s))
    | some m => strdup m room.copy fun q ↦ .modify s (setMessage q) (.done (some s))
  else .done none

def hrxStatusCode : HrxStatusPtr → StatusProgram ℤ
  | none => .done HrxStatusCode.ok.toInt
  | some s => readCode s .done

/-- The status of `hrx_status_to_string`, and what it writes to its out parameters. -/
structure Told where
  status : HrxStatusPtr
  message : Option Obj
  length : Option ℕ

/-- `hrx_status_to_string`, where `outMessage` and `outLength` say whether the caller gives these
parameters. -/
def hrxStatusToString (status : HrxStatusPtr) (outMessage outLength : Bool) (room : Room) :
    StatusProgram Told :=
  if outMessage then
    match status with
    | none =>
      strdup (.literal "OK") room.copy fun m ↦ .done ⟨none, m, if outLength then some 2 else none⟩
    | some s =>
      readMessage s fun q ↦ strdup (messageOr q) room.copy fun m ↦
      if outLength then readText (messageOr q) fun t ↦ .done ⟨none, m, some t.utf8ByteSize⟩
      else .done ⟨none, m, none⟩
  else (hrxMakeStatus HrxStatusCode.invalidArgument.toInt
    (some (.literal "out_message is NULL")) room).bind fun s ↦
    .done ⟨s, none, none⟩

def hrxStatusFreeMessage (message : Option Obj) : StatusProgram Unit := libcFree message (.done ())

/-- `hrx_status_ignore`, and `hrx_status_drop` inside the library. -/
def hrxStatusIgnore : HrxStatusPtr → StatusProgram Unit
  | none => .done ()
  | some s => readMessage s fun q ↦ libcFree q (.free s (.done ()))

def hrxStatusFromIree (i : IreeStatusPtr) (w : W) (room : Room) :
    StatusProgram (HrxStatusPtr × Option String) :=
  match i with
  | none => .done (none, none)
  | some (code, _) =>
    (iree.toString w i).bind fun
    | none => (iree.free i).bind fun _ ↦
      (hrxMakeStatus (hrxCodeFromIree code)
        (some (.literal "IREE error (could not format message)")) room).bind
        fun result ↦ .done (result, none)
    | some (m, told) =>
      (hrxMakeStatus (hrxCodeFromIree code) (some (.block m)) room).bind fun result ↦
      (iree.allocatorFree m).bind fun _ ↦ (iree.free i).bind fun _ ↦ .done (result, some told)

def hrxStatusToIree (status : HrxStatusPtr) (w : W) :
    StatusProgram (IreeStatusPtr × Option (ℤ × String)) :=
  match status with
  | none => .done (none, none)
  | some s =>
    readCode s fun code ↦
    let code := if code = HrxStatusCode.outOfMemory.toInt then 8 else code
    readMessage s fun q ↦ readText (messageOr q) fun t ↦ (iree.allocateF w code t).bind fun result ↦
    readMessage s fun q ↦ libcFree q <| .free s <| .done (result, some (code, t))

end Functions

def TextAt : Option Obj → Option String → Multiset (Obj × Block) → Prop
  | none, none, own => own = 0
  | some q, some t, own => own = {(q, .text t)}
  | _, _, _ => False

def StatusAt : HrxStatusPtr → HrxStatus → Multiset (Obj × Block) → Prop
  | none, none, own => own = 0
  | some s, some v, own =>
    ∃ q o, TextAt q v.message o ∧ own = (s, .status (some v.code) (some q)) ::ₘ o
  | _, _, _ => False

/-- What a program of the model returns when `room` says what there is room for. A message without
room is lost. -/
def valueOf (m : Hrx Unit HrxStatus) (room : Room) : HrxStatus :=
  (m.run (fun _ _ ↦ { status := if room.payload then none else some ⟨8, none⟩ }) 0 ()).val.map
    fun v ↦ if room.copy then v else { v with message := none }

def textOf : HrxStatus → String
  | none => "OK"
  | some v => v.message.getD "(no message)"

/-- What clients hold: a pointer and what it stands for. -/
inductive Holding
  | status (p : HrxStatusPtr) (v : HrxStatus)
  | message (m : Option Obj) (text : Option String)
  | iree (i : IreeStatusPtr)

/-- The calls. `fail` is a function of IREE that fails with `code`. -/
inductive StatusCall (W : Type)
  | make (code : ℤ) (message : Option String) (room : Room)
  | codeOf (p : HrxStatusPtr) (v : HrxStatus)
  | toString (p : HrxStatusPtr) (v : HrxStatus) (outMessage outLength : Bool) (room : Room)
  | freeMessage (m : Option Obj) (text : Option String)
  | ignore (p : HrxStatusPtr) (v : HrxStatus)
  | fail (code : ℤ) (message : String) (w : W)
  | fromIree (i : IreeStatusPtr) (w : W) (room : Room)
  | toIree (p : HrxStatusPtr) (v : HrxStatus) (w : W)

inductive StatusResult
  | status (p : HrxStatusPtr)
  | code (code : ℤ)
  | told (t : Told)
  | nothing
  | iree (i : IreeStatusPtr) (given : Option (ℤ × String))
  | converted (p : HrxStatusPtr) (told : Option String)

def Holding.blocks (blocks : IreeStatusPtr → Multiset (Obj × Block) → Prop) :
    Holding → Multiset (Obj × Block) → Prop
  | .status p v => StatusAt p v
  | .message m text => TextAt m text
  | .iree i => blocks i

namespace StatusCall

def needs : StatusCall W → Multiset Holding
  | make .. | fail .. => 0
  | codeOf p v | toString p v .. | ignore p v | toIree p v _ => {.status p v}
  | freeMessage m text => {.message m text}
  | fromIree i .. => {.iree i}

def body : StatusCall W → StatusProgram StatusResult
  | make code message room =>
    (hrxMakeStatus code (message.map .literal) room).bind fun p ↦ .done (.status p)
  | codeOf p _ => (hrxStatusCode p).bind fun z ↦ .done (.code z)
  | toString p _ outMessage outLength room =>
    (hrxStatusToString p outMessage outLength room).bind fun t ↦ .done (.told t)
  | freeMessage m _ => (hrxStatusFreeMessage m).bind fun _ ↦ .done .nothing
  | ignore p _ => (hrxStatusIgnore p).bind fun _ ↦ .done .nothing
  | fail code message w => (iree.allocateF w code message).bind fun i ↦ .done (.iree i none)
  | fromIree i w room => (hrxStatusFromIree iree i w room).bind fun r ↦ .done (.converted r.1 r.2)
  | toIree p _ w => (hrxStatusToIree iree p w).bind fun r ↦ .done (.iree r.1 r.2)

def gives : StatusCall W → StatusResult → Multiset Holding
  | make code message room, .status p =>
    {.status p (valueOf (Libhrx.hrxMakeStatus code message) room)}
  | codeOf p v, .code _ => {.status p v}
  | toString p v outMessage _ room, .told t =>
    .status p v ::ₘ .message t.message
      (if outMessage ∧ room.copy then some (textOf v) else none) ::ₘ
      {.status t.status
        (if outMessage then none else valueOf
          (hrxError .invalidArgument "out_message is NULL") room)}
  | fail .., .iree i _ => {.iree i}
  | fromIree i _ room, .converted p told =>
    {.status p (valueOf (Libhrx.hrxStatusFromIree (i.map fun e ↦ ⟨e.1, told⟩)) room)}
  | toIree .., .iree i _ => {.iree i}
  | _, _ => 0

def tells : StatusCall W → StatusResult → Prop
  | make .., .status _ | freeMessage .., .nothing | ignore .., .nothing
    | fromIree .., .converted _ _ => True
  | codeOf _ v, .code z => z = Libhrx.hrxStatusCode v
  | toString _ v outMessage outLength _, .told t =>
    t.length = if outMessage ∧ outLength then some (textOf v).utf8ByteSize else none
  | fail code _ _, .iree i _ => i.map Prod.fst = wireCode code
  | toIree _ v _, .iree i given =>
    i.map Prod.fst = wireCode (Libhrx.hrxStatusCode v) ∧
      ∀ (o : Outside) n, ((Libhrx.hrxStatusToIree v).run o n ()).events.map Event.call =
        given.toList.map fun g ↦ .statusAllocateF g.1 g.2
  | _, _ => False

end StatusCall

section Specs

variable {iree} {blocks : IreeStatusPtr → Multiset (Obj × Block) → Prop}
variable {own o : Multiset (Obj × Block)} {Q : α → Multiset (Obj × Block) → Prop} {t : String}
  {q : Option Obj}

def Readable (own : Multiset (Obj × Block)) : CStr → String → Prop
  | .literal t', t => t' = t
  | .block p, t => (p, .text t) ∈ own

theorem readText_within {c : CStr} {k : String → StatusProgram α} (hc : Readable own c t)
    (hk : (k t).Within Q own) :
    (readText c k).Within Q own := by
  cases c with
  | literal t' =>
    obtain rfl : t' = t := hc
    exact hk
  | block p =>
    have hmem : (p, Block.text t) ∈ own := hc
    exact .read hmem hk

theorem strdup_within {c : CStr} {room : Bool} {k : Option Obj → StatusProgram α}
    (hc : Readable own c t)
    (hk : ∀ q o, TextAt q (if room then some t else none) o → (k q).Within Q (o + own)) :
    (strdup c room k).Within Q own := by
  refine readText_within hc ?_
  cases room with
  | false => simpa using hk none 0 (by simp [TextAt])
  | true => exact .alloc fun p ↦ by simpa using hk (some p) {(p, .text t)} (by simp [TextAt])

theorem libcFree_within {text : Option String} {k : StatusProgram α} (hq : TextAt q text o)
    (hk : k.Within Q own) :
    (libcFree q k).Within Q (o + own) := by
  match q, text, hq with
  | none, none, hq =>
    obtain rfl := hq
    simpa [libcFree] using hk
  | some p, some t, hq =>
    obtain rfl := hq
    exact .free (Multiset.singleton_add ..) hk

theorem readable_messageOr {text : Option String} (hq : TextAt q text o) (hle : o ≤ own) :
    Readable own (messageOr q) (text.getD "(no message)") := by
  match q, text, hq with
  | none, none, _ => rfl
  | some p, some t, hq =>
    obtain rfl := hq
    exact Multiset.mem_of_le hle (Multiset.mem_singleton_self _)

theorem Readable.mono {c : CStr} (hc : Readable own c t) (hle : own ≤ o) : Readable o c t := by
  cases c with
  | literal => exact hc
  | block p => exact Multiset.mem_of_le hle hc

theorem valueOf_make (code : ℤ) (message : Option String) (room : Room) :
    valueOf (Libhrx.hrxMakeStatus code message) room =
      if code = 0 then none else if room.payload then some
        ⟨code, if room.copy then message else none⟩ else none := by
  by_cases hcode : code = 0
  · simp [valueOf, Libhrx.hrxMakeStatus, hcode, hrxOkStatus]
  · rw [valueOf, run_hrxMakeStatus_made hcode, if_neg hcode]
    cases hp : room.payload with
    | false => simp [made, payload, ok, happens]
    | true => cases hc : room.copy <;> simp [made, payload, ok, happens]

/-- The blocks of a status made beside `own` are those of the value that the model without memory
makes. -/
theorem hrxMakeStatus_within {message : Option CStr} {text : Option String}
    (hm : Option.Rel (Readable own) message text) (code : ℤ) (room : Room) :
    (hrxMakeStatus code message room).Within
      (fun p o ↦ ∃ o', StatusAt p (valueOf (Libhrx.hrxMakeStatus code text) room) o' ∧ o = o' + own)
        own := by
  rw [valueOf_make, hrxMakeStatus]
  split
  case isTrue => exact .done ⟨0, rfl, (zero_add _).symm⟩
  case isFalse =>
    split
    case isFalse => exact .done ⟨0, rfl, (zero_add _).symm⟩
    case isTrue =>
      refine .alloc fun s ↦ .modify rfl ?_
      cases hm with
      | none =>
        refine .modify rfl (.done ⟨_, ⟨none, 0, ?_, rfl⟩, ?_⟩)
        · simp [TextAt]
        · simp [setCode, setMessage]
      | @some c text hc =>
        refine strdup_within (hc.mono (Multiset.le_cons_self ..)) fun q o hq ↦ ?_
        refine .modify (Multiset.add_cons ..) (.done ⟨_, ⟨q, o, hq, rfl⟩, ?_⟩)
        simp [setCode, setMessage]

theorem valueOf_fromIree (code : ℤ) (told : Option String) (room : Room) :
    valueOf (Libhrx.hrxStatusFromIree (some ⟨code, told⟩)) room = valueOf
      (Libhrx.hrxMakeStatus (hrxCodeFromIree code)
      (some (told.getD "IREE error (could not format message)"))) room := by
  cases told <;> rfl

theorem hrxStatusFromIree_within {i : IreeStatusPtr} (hiree : iree.Documented blocks)
    (hi : blocks i own) (w : W) (room : Room) : (hrxStatusFromIree iree i w room).Within (fun r o ↦
      StatusAt r.1 (valueOf (Libhrx.hrxStatusFromIree (i.map fun e ↦ ⟨e.1, r.2⟩)) room) o) own := by
  match i with
  | none => exact .done ((hiree.ok own).mp hi)
  | some (code, b) =>
    refine (hiree.told w _ own hi).bind fun m o hm ↦ ?_
    subst hm
    rcases m with _ | ⟨m, told⟩
    · -- IREE could not tell the status.
      rw [Option.elim_none, zero_add, ← add_zero own]
      refine (hiree.freed _ own hi).beside fun _ o ho ↦ ?_
      subst ho
      have htext : Option.Rel (Readable 0) (some (.literal "IREE error (could not format message)"))
        (some "IREE error (could not format message)") := .some rfl
      refine (hrxMakeStatus_within htext (hrxCodeFromIree code) room).bind fun p o hp ↦ .done ?_
      obtain ⟨o', hstatus, rfl⟩ := hp
      rw [Option.map_some, valueOf_fromIree]
      simpa using hstatus
    · rw [Option.elim_some]
      have hread : Readable ({(m, Block.text told)} + own) (.block m) told := by simp [Readable]
      refine (hrxMakeStatus_within (.some hread) (hrxCodeFromIree code) room).bind fun p o hp ↦ ?_
      obtain ⟨o', hstatus, rfl⟩ := hp
      have hown : o' + ({(m, Block.text told)} + own) = {(m, Block.text told)} + (own + o') := by
        rw [add_comm, add_assoc]
      rw [hown]
      refine (hiree.textFreed m told).beside fun _ o ho ↦ ?_
      subst ho
      rw [zero_add]
      refine (hiree.freed _ own hi).beside fun _ o ho ↦ .done ?_
      subst ho
      rw [Option.map_some, valueOf_fromIree]
      simpa using hstatus

theorem readMessage_within {s : Obj} {v : HrxStatusS} {k : Option Obj → StatusProgram α}
    (hmem : (s, .status (some v.code) (some q)) ∈ own) (hk : (k q).Within Q own) :
    (readMessage s k).Within Q own :=
  .read hmem hk

theorem readCode_within {s : Obj} {v : HrxStatusS} {k : ℤ → StatusProgram α}
    (hmem : (s, .status (some v.code) (some q)) ∈ own) (hk : (k v.code).Within Q own) :
    (readCode s k).Within Q own :=
  .read hmem hk

/-- What `hrx_status_to_string` tells of the value `v` with room for the texts, and what it leaves
beside `own`. -/
def Tells (v : HrxStatus) (outMessage outLength : Bool) (room : Room) (own : Multiset (Obj × Block))
    (t : Told) (o : Multiset (Obj × Block)) : Prop :=
  (t.length = if outMessage ∧ outLength then some (textOf v).utf8ByteSize else none) ∧ ∃ o₁ o₂,
    TextAt t.message (if outMessage ∧ room.copy then some (textOf v) else none) o₁ ∧
    StatusAt t.status
      (if outMessage then none else valueOf (hrxError .invalidArgument "out_message is NULL") room)
    o₂ ∧
    o = own + (o₁ + o₂)

theorem hrxStatusToString_within {p : HrxStatusPtr} {v : HrxStatus} (hp : StatusAt p v own)
    (outMessage outLength : Bool) (room : Room) :
    (hrxStatusToString p outMessage outLength room).Within
      (Tells v outMessage outLength room own) own := by
  cases outMessage with
  | false =>
    have htext : Option.Rel (Readable own) (some (.literal "out_message is NULL"))
        (some "out_message is NULL") := .some rfl
    refine (hrxMakeStatus_within htext HrxStatusCode.invalidArgument.toInt room).bind
      fun s o hs ↦ ?_
    obtain ⟨o', hstatus, rfl⟩ := hs
    exact .done
      ⟨by simp, 0,
        o', by simp [TextAt], by simpa [hrxError] using hstatus, by rw [zero_add, add_comm]⟩
  | true =>
    have hdone : ∀ {m o length}, TextAt m (if room.copy then some (textOf v) else none) o →
        (length = if outLength then some (textOf v).utf8ByteSize else none) →
        (Blocks.done ⟨none, m, length⟩ : StatusProgram Told).Within
        (Tells v true outLength room own) (o + own) := by
      intro m o length hm hlength
      exact .done ⟨by simpa using hlength, o, 0, by simpa using hm, rfl, by rw [add_zero, add_comm]⟩
    unfold hrxStatusToString
    rw [if_pos rfl]
    match p, v, hp with
    | none, none, _ =>
      have hread : Readable own (.literal "OK") "OK" := rfl
      refine strdup_within hread fun m o hm ↦ hdone hm ?_
      cases outLength with
      | false => rfl
      | true => decide
    | some s, some v, hp =>
      obtain ⟨q, o, hq, rfl⟩ := hp
      have hread :=
        readable_messageOr hq (Multiset.le_cons_self o (s, .status (some v.code) (some q)))
      refine readMessage_within (Multiset.mem_cons_self ..) (strdup_within hread fun m o' hm ↦ ?_)
      cases outLength with
      | false => exact hdone hm rfl
      | true => exact readText_within (hread.mono (Multiset.le_add_left ..)) (hdone hm rfl)

theorem hrxStatusIgnore_within {p : HrxStatusPtr} {v : HrxStatus} (hp : StatusAt p v own) :
    (hrxStatusIgnore p).Within (fun _ o ↦ o = 0) own := by
  match p, v, hp with
  | none, none, hp => exact .done hp
  | some s, some v, hp =>
    obtain ⟨q, o, hq, rfl⟩ := hp
    refine readMessage_within (Multiset.mem_cons_self ..) ?_
    rw [← Multiset.singleton_add, add_comm]
    exact libcFree_within hq (.free rfl (.done rfl))

theorem hrxStatusToIree_within {p : HrxStatusPtr} {v : HrxStatus} (hiree : iree.Documented blocks)
    (hp : StatusAt p v own) (w : W) :
    (hrxStatusToIree iree p w).Within (fun r o ↦ blocks r.1 o ∧
      r.1.map Prod.fst = wireCode (Libhrx.hrxStatusCode v) ∧
      ∀ (o : Outside) n, ((Libhrx.hrxStatusToIree v).run o n ()).events.map Event.call =
        r.2.toList.map fun g ↦ .statusAllocateF g.1 g.2) own := by
  match p, v, hp with
  | none, none, hp => exact .done ⟨(hiree.ok own).mpr hp, by decide, fun _ _ ↦ rfl⟩
  | some s, some v, hp =>
    obtain ⟨q, o, hq, rfl⟩ := hp
    have hread :=
      readable_messageOr hq (Multiset.le_cons_self o (s, .status (some v.code) (some q)))
    have hmem : (s, .status (some v.code) (some q)) ∈ (s, .status (some v.code) (some q)) ::ₘ o :=
      Multiset.mem_cons_self ..
    refine readCode_within hmem (readMessage_within hmem (readText_within hread ?_))
    rw [← zero_add (_ ::ₘ _)]
    refine (hiree.allocated w _ _).beside fun i o' hi ↦ ?_
    obtain ⟨hcode, hi⟩ := hi
    refine readMessage_within (Multiset.mem_add.mpr (.inr hmem)) ?_
    have hown : o' + (s, Block.status (some v.code) (some q)) ::ₘ o =
        o + (s, .status (some v.code) (some q)) ::ₘ o' := by
      rw [Multiset.add_cons, Multiset.add_cons, add_comm]
    rw [hown]
    refine libcFree_within hq (.free rfl (.done ⟨hi, ?_, fun o n ↦ ?_⟩))
    · have hsame : (if v.code = HrxStatusCode.outOfMemory.toInt then 8 else v.code) = v.code := by
        split
        · next h => exact h.symm
        · rfl
      rwa [hsame] at hcode
    · simp [Libhrx.hrxStatusToIree]

end Specs

variable {iree} {blocks : IreeStatusPtr → Multiset (Obj × Block) → Prop}

theorem StatusCall.body_within (hiree : iree.Documented blocks) (c : StatusCall W)
    {own : Multiset (Obj × Block)} (hown : Apart (Holding.blocks blocks) c.needs own) :
    (c.body iree).Within
      (fun a o ↦ c.tells a ∧ Apart (Holding.blocks blocks) (c.gives a) o) own := by
  have hgive : ∀ {r : Holding} {o}, r.blocks blocks o → Apart (Holding.blocks blocks) {r} o :=
    Apart.singleton_iff.mpr
  cases c with
  | make code message room =>
    obtain rfl := Apart.zero_iff.mp hown
    have hread : Option.Rel (Readable 0) (message.map .literal) message := by
      cases message with
      | none => exact .none
      | some t => exact .some rfl
    refine (hrxMakeStatus_within hread code room).bind fun p o hp ↦ .done ⟨trivial, hgive ?_⟩
    obtain ⟨o', hstatus, rfl⟩ := hp
    rwa [add_zero]
  | codeOf p v =>
    have hp : (Holding.status p v).blocks blocks own := Apart.singleton_iff.mp hown
    match p, v, hp with
    | none, none, hp => exact .done ⟨rfl, hown⟩
    | some s, some v, hp =>
      have hcode : (hrxStatusCode (some s)).Within (fun z o ↦ z = v.code ∧ o = own) own := by
        obtain ⟨q, o, -, rfl⟩ := hp
        exact readCode_within (Multiset.mem_cons_self ..) (.done ⟨rfl, rfl⟩)
      refine hcode.bind fun z o hz ↦ ?_
      obtain ⟨rfl, rfl⟩ := hz
      exact .done ⟨rfl, hown⟩
  | toString p v outMessage outLength room =>
    have hp : (Holding.status p v).blocks blocks own := Apart.singleton_iff.mp hown
    refine (hrxStatusToString_within hp outMessage outLength room).bind fun t o ht ↦ ?_
    obtain ⟨hlength, o₁, o₂, hmessage, hstatus, rfl⟩ := ht
    have hm : (Holding.message t.message _).blocks blocks o₁ := hmessage
    have hs : (Holding.status t.status _).blocks blocks o₂ := hstatus
    exact .done
      ⟨hlength,
        Apart.cons_iff.mpr ⟨own, _, hp, Apart.cons_iff.mpr ⟨o₁, o₂, hm, hgive hs, rfl⟩, rfl⟩⟩
  | freeMessage m text =>
    have hm : (Holding.message m text).blocks blocks own := Apart.singleton_iff.mp hown
    have hfreed : (hrxStatusFreeMessage m).Within (fun _ o ↦ o = 0) own := by
      rw [← add_zero own]
      exact libcFree_within hm (.done rfl)
    exact hfreed.bind fun _ o ho ↦ .done ⟨trivial, Apart.zero_iff.mpr ho⟩
  | ignore p v =>
    have hp : (Holding.status p v).blocks blocks own := Apart.singleton_iff.mp hown
    exact (hrxStatusIgnore_within hp).bind fun _ o ho ↦ .done ⟨trivial, Apart.zero_iff.mpr ho⟩
  | fail code message w =>
    obtain rfl := Apart.zero_iff.mp hown
    exact (hiree.allocated w code message).bind fun i o hi ↦ .done ⟨hi.1, hgive hi.2⟩
  | fromIree i w room =>
    have hi : (Holding.iree i).blocks blocks own := Apart.singleton_iff.mp hown
    exact (hrxStatusFromIree_within hiree hi w room).bind fun r o hr ↦ .done ⟨trivial, hgive hr⟩
  | toIree p v w =>
    have hp : (Holding.status p v).blocks blocks own := Apart.singleton_iff.mp hown
    exact (hrxStatusToIree_within hiree hp w).bind fun r o hr ↦ .done ⟨hr.2, hgive hr.1⟩

def statusContract (hiree : iree.Documented blocks) :
    Contract Obj Block Holding (StatusCall W) StatusResult where
  blocks := Holding.blocks blocks
  needs := StatusCall.needs
  body := StatusCall.body iree
  gives := StatusCall.gives
  tells := StatusCall.tells
  sound := fun c _ hown ↦ c.body_within hiree hown

def readStatus (heap : Obj → Option Block) : HrxStatusPtr → Option HrxStatus
  | none => some none
  | some s =>
    match heap s with
    | some (.status (some code) (some none)) => some (some ⟨code, none⟩)
    | some (.status (some code) (some (some q))) =>
      match heap q with
      | some (.text t) => some (some ⟨code, some t⟩)
      | _ => none
    | _ => none

theorem readStatus_of_statusAt {heap : Obj → Option Block} {p : HrxStatusPtr} {v : HrxStatus}
    {own : Multiset (Obj × Block)} (hp : StatusAt p v own)
    (hheap : ∀ q b, (q, b) ∈ own → heap q = some b) :
    readStatus heap p = some v := by
  match p, v, hp with
  | none, none, _ => rfl
  | some s, some ⟨code, message⟩, hp =>
    obtain ⟨q, o, hq, rfl⟩ := hp
    have hs := hheap s _ (Multiset.mem_cons_self ..)
    match q, message, hq with
    | none, none, _ => simp [readStatus, hs]
    | some q, some t, hq =>
      obtain rfl := hq
      have ht := hheap q (.text t) (by simp)
      simp [readStatus, hs, ht]

variable {ls : List (StatusCall W × StatusResult)} {heap : Obj → Option Block}
variable {xs : Multiset (Party Obj Block Holding (StatusCall W) StatusResult)}

/-- However threads make, ask, hand on and free statuses, and wherever memory runs out: a status on
the heap is the value that the model without memory says, the calls tell what it says, from where
the threads are each call comes to its end, and nothing is left when everything has been given
back. -/
theorem status_memory_safe (hiree : iree.Documented blocks)
    (h : Pool.Run (statusContract hiree).Next ⟨fun _ ↦ none, 0⟩ ls ⟨heap, xs⟩) :
    (∀ p v, .held (.status p v) ∈ xs → readStatus heap p = some v) ∧
      (∀ m t, .held (.message (some m) (some t)) ∈ xs → heap m = some (.text t)) ∧
      (∀ x ∈ ls, StatusCall.tells x.1 x.2) ∧
      (∀ c w others, xs = {.busy c w} + others → ∃ a heap',
        Pool.Run (statusContract hiree).Next ⟨heap, {.busy c w} + others⟩ [(c, a)]
          ⟨heap', (StatusCall.gives c a).map .held + others⟩) ∧
      (xs = 0 → ∀ p, heap p = none) := by
  have hinv := Contract.Inv.of_run h
  refine ⟨fun p v hp ↦ ?_, fun m t hm ↦ ?_, hinv.told, ?_, ?_⟩
  · obtain ⟨own, hown, hheap⟩ := hinv.held hp
    exact readStatus_of_statusAt hown hheap
  · obtain ⟨own, hown, hheap⟩ := hinv.held hm
    obtain rfl : own = {(m, .text t)} := hown
    exact hheap m _ (Multiset.mem_singleton_self _)
  · rintro c w others rfl
    exact hinv.returns .start
  · rintro rfl p
    exact hinv.nothing p

/-- Functions of IREE that keep the message of a status in its block, if there is room for one. -/
def keepingIree : IreeStatuses Bool where
  allocateF room code message :=
    match wireCode code with
    | none => .done none
    | some c =>
      if room then .alloc (.iree message.toUTF8.toList) fun b ↦ .done (some (c, some b))
        else .done (some (c, none))
  toString room i :=
    match i.bind Prod.snd with
    | some b => .read b fun
      | .iree bytes =>
        let told := String.ofList (bytes.map fun byte ↦ Char.ofNat byte.toNat)
        if room then .alloc (.text told) fun m ↦ .done (some (m, told)) else .done none
      | _ => .stuck
    | none => .done none
  free i := libcFree (i.bind Prod.snd) (.done ())
  allocatorFree p := .free p (.done ())

def keptAt : IreeStatusPtr → Multiset (Obj × Block) → Prop
  | some (_, some b), own => ∃ bytes, own = {(b, .iree bytes)}
  | _, own => own = 0

theorem keepingIree_documented : keepingIree.Documented keptAt where
  ok _ := Iff.rfl
  allocated room code message := by
    simp only [keepingIree]
    cases hcode : wireCode code with
    | none => exact .done ⟨rfl, rfl⟩
    | some c =>
      cases room with
      | false => exact .done ⟨rfl, rfl⟩
      | true => exact .alloc fun b ↦ .done ⟨rfl, _, rfl⟩
  told room i own hi := by
    match i, hi with
    | none, _ | some (_, none), _ => exact .done (zero_add own).symm
    | some (_, some b), hi =>
      obtain ⟨bytes, rfl⟩ := hi
      refine .read (Multiset.mem_singleton_self _) ?_
      cases room with
      | false => exact .done (zero_add _).symm
      | true => exact .alloc fun m ↦ .done rfl
  freed i own hi := by
    match i, hi with
    | none, hi | some (_, none), hi => exact .done hi
    | some (_, some b), hi =>
      obtain ⟨bytes, rfl⟩ := hi
      exact .free rfl (.done rfl)
  textFreed p t := .free rfl (.done rfl)

/-- Two threads make a status each. There is no room left for the second message, and the second
status is handed to IREE. -/
theorem status_memory_safe_two :
    ∃ heap i, readStatus heap (some 1) = some (some ⟨3, some "bad"⟩) ∧ heap 2 = none ∧
      StatusCall.tells (W := Bool) (.toIree (some 2) (some ⟨5, none⟩) true)
        (.iree i (some (5, "(no message)"))) := by
  let first : StatusCall Bool := .make 3 (some "bad") ⟨true, true⟩
  let second : StatusCall Bool := .make 5 (some "lost") ⟨true, false⟩
  let third : StatusCall Bool := .toIree (some 2) (some ⟨5, none⟩) true
  have hidle : Pool.Run (statusContract keepingIree_documented).Next ⟨fun _ ↦ none, 0⟩ []
      ⟨fun _ ↦ none, ((statusContract keepingIree_documented).needs first).map .held + 0⟩ := .start
  have hhalf :=
    Contract.run_step (Contract.run_step (Contract.run_enter first hidle) (.alloc (p := 1) rfl))
      (.modify rfl)
  rw [← zero_add (_ + _)] at hhalf
  have hsecond := Contract.run_step (Contract.run_enter second hhalf) (.alloc (p := 2) rfl)
  have hlost :=
    Contract.run_leave (Contract.run_step (Contract.run_step hsecond (.modify rfl)) (.modify rfl))
  have hread :=
    Contract.run_step (Contract.run_step (Contract.run_enter third hlost) (.read rfl)) (.read rfl)
  have hgiven := Contract.run_step (Contract.run_step hread (.alloc (p := 4) rfl)) (.read rfl)
  have hhanded := Contract.run_leave (Contract.run_step hgiven (.free rfl))
  rw [add_left_comm] at hhanded
  have hcopied := Contract.run_step (Contract.run_step hhanded (.alloc (p := 3) rfl)) (.modify rfl)
  obtain ⟨hstatuses, -, htells, -⟩ :=
    status_memory_safe keepingIree_documented (Contract.run_leave hcopied)
  refine ⟨_, some (5, some 4), hstatuses (some 1) (some ⟨3, some "bad"⟩) ?_, rfl,
    htells (third, .iree (some (5, some 4)) (some (5, "(no message)"))) ?_⟩
  · exact Multiset.mem_add.mpr (.inl (Multiset.mem_singleton_self _))
  · exact List.mem_append_left _ (List.mem_append_right _ (List.mem_singleton_self _))

end HrxSystem.Libhrx.StatusMemory
