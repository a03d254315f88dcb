import HrxSystem.Hip.Dumps

namespace HrxSystem.Hip

open External Program

def hexDigit (d : ℕ) : Char :=
  ['0', '1', '2', '3', '4', '5', '6', '7', '8', '9', 'a', 'b', 'c', 'd', 'e', 'f'].getD d '?'

def hexValue (c : Char) : Option ℕ := (List.range 16).find? fun d ↦ hexDigit d == c

def hexEncode (bytes : List UInt8) : List Char :=
  bytes.flatMap fun b ↦ [hexDigit (b.toNat / 16), hexDigit (b.toNat % 16)]

def hexDecode : List Char → Option (List UInt8)
  | [] => some []
  | [_] => none
  | c :: d :: cs => do
    let high ← hexValue c
    let low ← hexValue d
    let bytes ← hexDecode cs
    return UInt8.ofNat (16 * high + low) :: bytes

def strip (s : String) : List Char := s.toList.filter fun c ↦ !c.isWhitespace

section Digits

theorem digitChar_eq {d : ℕ} (h : d < 16) : Nat.digitChar d = hexDigit d := by
  revert d
  decide

theorem hexDigit_isWhitespace {d : ℕ} (h : d < 16) : (hexDigit d).isWhitespace = false := by
  revert d
  decide

theorem hexValue_hexDigit {d : ℕ} (h : d < 16) : hexValue (hexDigit d) = some d := by
  revert d
  decide

theorem hexDecode_hexEncode (bytes : List UInt8) : hexDecode (hexEncode bytes) = some bytes := by
  induction bytes with
  | nil => rfl
  | cons b bytes ih =>
    have hb := b.toNat_lt
    have hvalue : 16 * (b.toNat / 16) + b.toNat % 16 = b.toNat := Nat.div_add_mod ..
    rw [hexEncode, List.flatMap_cons, List.cons_append, List.cons_append, List.nil_append,
      ← hexEncode, hexDecode, hexValue_hexDigit (by omega), hexValue_hexDigit (by omega), ih]
    simp only [Option.bind_eq_bind, Option.bind_some, hvalue, UInt8.ofNat_toNat]
    rfl

theorem strip_append (s t : String) : strip (s ++ t) = strip s ++ strip t := by
  rw [strip, String.toList_append, List.filter_append, strip, strip]

theorem strip_hexPiece (i : ℕ) (b : UInt8) :
    strip (hexPiece i b) = [hexDigit (b.toNat / 16), hexDigit (b.toNat % 16)] := by
  have hb := b.toNat_lt
  have hspace :
      strip (if (i + 1) % 32 = 0 then "\n    " else if (i + 1) % 4 = 0 then " " else "") = [] := by
    split
    · decide
    split <;> decide
  rw [hexPiece, strip_append, hspace, List.append_nil, digitChar_eq (by omega),
    digitChar_eq (by omega), strip, String.toList_ofList]
  simp [hexDigit_isWhitespace (show b.toNat / 16 < 16 by omega),
    hexDigit_isWhitespace (show b.toNat % 16 < 16 by omega)]

theorem strip_join (bytes : List UInt8) (k : ℕ) :
    strip (String.join ((bytes.zipIdx k).map fun p ↦ hexPiece p.2 p.1)) = hexEncode bytes := by
  induction bytes generalizing k with
  | nil => rfl
  | cons b bytes ih =>
    have ih' := ih (k + 1)
    rw [strip, String.toList_join] at ih' ⊢
    rw [List.zipIdx_cons, List.map_cons, List.flatMap_cons, List.filter_append, ih']
    rw [← strip, strip_hexPiece, hexEncode, hexEncode, List.flatMap_cons]

end Digits

/-- A text that shows the first bytes of a buffer in hex, and how many it leaves out. -/
def ShowsBytes (contents : List UInt8) (limit : ℕ) (text : String) : Prop :=
  ∃ body, text = body ++ (if contents.length > limit then
      "... (" ++ toString (contents.length - limit) ++ " more bytes)" else "") ++ "\n" ∧
    strip body = hexEncode (contents.take (min contents.length limit)) ∧
    hexDecode (strip body) = some (contents.take (min contents.length limit))

theorem hexText_shows {contents data : List UInt8} {limit : ℕ} (hdata : data <+: contents)
    (hlimit : min contents.length limit ≤ data.length) :
    ShowsBytes contents limit (hexText data contents.length limit) := by
  have htake :
      data.take (min contents.length limit) = contents.take (min contents.length limit) := by
    obtain ⟨rest, rfl⟩ := hdata
    rw [List.take_append_of_le_length hlimit]
  have hstrip :
      strip ("    " ++ String.join ((data.take (min contents.length limit)).zipIdx.map fun p ↦
      hexPiece p.2 p.1)) = hexEncode (contents.take (min contents.length limit)) := by
    rw [strip_append, strip_join, htake]
    rfl
  refine ⟨_, rfl, hstrip, ?_⟩
  rw [hstrip, hexDecode_hexEncode]

def bytesAt (memory : Ptr → UInt8) (p : Ptr) (n : ℕ) : List UInt8 :=
  (List.range n).map fun k ↦ memory (p + k)

@[simp] theorem bytesAt_length (memory : Ptr → UInt8) (p : Ptr) (n : ℕ) :
    (bytesAt memory p n).length = n := by
  simp [bytesAt]

theorem bytesAt_prefix (memory : Ptr → UInt8) (p : Ptr) {m n : ℕ} (h : m ≤ n) :
    bytesAt memory p m <+: bytesAt memory p n := by
  obtain ⟨k, rfl⟩ := Nat.exists_eq_add_of_le h
  rw [bytesAt, bytesAt, List.range_add, List.map_append]
  exact List.prefix_append ..

theorem firstBytes_of_length {n : ℕ} {bytes : List UInt8} (h : bytes.length = n) :
    firstBytes n bytes = bytes := by
  rw [firstBytes, h, Nat.sub_self, List.replicate_zero, List.append_nil,
    List.take_of_length_le h.le]

/-- The memory that each request of a run meets: a copy that succeeds and a direct read give the
bytes they are asked for. -/
structure Serves (o : Backend) (device host : ℕ → Ptr → UInt8) : Prop where
  staged : ∀ i p n, (o i (.stage p n)).ret = 0 → (o i (.stage p n)).bytes = bytesAt (device i) p n
  read : ∀ i p n, (o i (.read p n)).bytes = bytesAt (host i) p n

def TrackedBuffer.contents (device host : Ptr → UInt8) (b : TrackedBuffer) : List UInt8 :=
  bytesAt (if b.btype = .device then device else host) b.ptr b.size

def hexLines (config : TracerConfig) (b : TrackedBuffer) (a : HipAnswer) (text : String) :
    List TraceLine :=
  if b.btype = .device ∧ a.ret ≠ 0 then
    if 1 ≤ config.traceLevel then [.dumpFailed b a.ret] else []
  else [.dumpEntry b, .dumpHex text]

section Main

variable {o : Backend} {device host : ℕ → Ptr → UInt8} {config : TracerConfig} {force : Bool}
  {b : TrackedBuffer}
variable {i : ℕ}

theorem Serves.data (h : Serves o device host)
    (hok : b.btype = .device → (o i (dumpRequest config force b)).ret = 0) :
    firstBytes (readSize config force b) (o i (dumpRequest config force b)).bytes <+:
      b.contents (device i) (host i) := by
  rw [dumpRequest] at hok ⊢
  rw [TrackedBuffer.contents]
  by_cases hdev : b.btype = .device
  · rw [if_pos hdev] at hok ⊢
    rw [if_pos hdev, h.staged _ _ _ (hok hdev), firstBytes_of_length (bytesAt_length ..)]
    exact bytesAt_prefix _ _ (readSize_le config force b)
  · rw [if_neg hdev, if_neg hdev, h.read, firstBytes_of_length (bytesAt_length ..)]
    exact bytesAt_prefix _ _ (readSize_le config force b)

/-- A dump in hex stays within the data it reads and shows the bytes of each buffer up to its
limit. -/
theorem hex_dump_decodes {present : Present} {st : Tracer} (hp : present .hipMemcpy = true)
    (hserves : Serves o device host) (hdump : st.config.traceDump ≠ 0)
    (hhex : ¬ (st.config.traceDump = 2 ∧ force = false)) (hsize : ∀ b ∈ st.buffers.used, b.size ≠ 0)
    (label : String) (n : ℕ) : ∃ text : TrackedBuffer → ℕ → String,
      (dumpAllBuffersEx present label force).run o n st = ⟨some (),
        st.writes
          (dumpHeader st.config force label st.buffers.count ++ (st.buffers.used.zipIdx n).flatMap
            fun p ↦
          hexLines st.config p.1 (o p.2 (dumpRequest st.config force p.1)) (text p.1 p.2)),
        dumpReads st.config force o n st.buffers.used⟩ ∧
      ∀ p ∈ st.buffers.used.zipIdx n,
        (p.1.btype = .device → (o p.2 (dumpRequest st.config force p.1)).ret = 0) → ∃ data,
          data = firstBytes (readSize st.config force p.1)
            (o p.2 (dumpRequest st.config force p.1)).bytes ∧
          data <+: p.1.contents (device p.2) (host p.2) ∧
          dumpBufferHex data p.1.size (dumpLimit st.config force p.1) = some (text p.1 p.2) ∧
          ShowsBytes (p.1.contents (device p.2) (host p.2))
            (if force then p.1.size else st.config.traceDumpMax)
            (text p.1 p.2) := by
  refine ⟨fun b i ↦ hexText
    (firstBytes (readSize st.config force b) (o i (dumpRequest st.config force b)).bytes) b.size
    (dumpLimit st.config force b), ?_, ?_⟩
  · have hlines : ∀ b a, dumpLines st.config force b a = hexLines st.config b a
        (hexText (firstBytes (readSize st.config force b) a.bytes) b.size
          (dumpLimit st.config force b)) := by
      intro b a
      rw [dumpLines, if_neg hhex, hexLines]
    rw [run_dumpAllBuffersEx label hdump (fun _ _ _ ↦ hp) hsize, dumpReport]
    simp only [hlines]
  · intro p _ hok
    have hlength : (p.1.contents (device p.2) (host p.2)).length = p.1.size := bytesAt_length ..
    have hshown := shown_le_readSize st.config force p.1
    have hdata := hserves.data hok
    refine ⟨_, rfl, hdata, dumpBufferHex_eq_some (by rwa [firstBytes_length]), ?_⟩
    have hshows :=
      @hexText_shows _ _ (dumpLimit st.config force p.1) hdata (by rwa [firstBytes_length, hlength])
    rwa [hlength] at hshows

end Main

def addressBytes : Backend := fun _ r ↦
  match r with
  | .stage p n | .read p n => { bytes := bytesAt UInt8.ofNat p n }
  | _ => {}

theorem addressBytes_serves : Serves addressBytes (fun _ ↦ UInt8.ofNat) fun _ ↦ UInt8.ofNat :=
  ⟨fun _ _ _ _ ↦ rfl, fun _ _ _ ↦ rfl⟩

theorem hex_dump_decodes_pair :
    ((dumpAllBuffersEx (fun _ ↦ true) "" false).run addressBytes 0
      (applyOps (.initial dumping true false) [.add 4096 64 .device, .add 8192 2000 .host])).val =
        some () := by
  have hfresh : RepInv (Tracer.initial dumping true false).buffers 0 0 := by
    rw [initial_buffers]
    exact freshTable_repInv
  obtain ⟨_, _, hinv, -⟩ :=
    @applyOps_repInv _ [.add 4096 64 .device, .add 8192 2000 .host] hfresh (by decide)
  have hconfig :
      (applyOps (.initial dumping true false) [.add 4096 64 .device, .add 8192 2000 .host]).config =
        dumping :=
      (applyOps_config ..).trans (congrArg Tally.config (@initial_tally dumping true false))
  obtain ⟨text, hrun, -⟩ :=
    @hex_dump_decodes addressBytes _ _ false (fun _ ↦ true) _ rfl addressBytes_serves
    (by rw [hconfig]; decide) (by rw [hconfig]; decide) (fun b hb ↦ (hinv.valid b hb).2) "" 0
  rw [hrun]

end HrxSystem.Hip
