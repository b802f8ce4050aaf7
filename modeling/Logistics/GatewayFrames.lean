import Logistics.Checksum
import Logistics.Serialize
import Logistics.TcpReads

namespace Logistics.GatewayFrames

open JsonManager Deserialize Checksum Serialize Framing Server Sockets TcpSession List

structure Envelope where
  msgType : String
  sourceRole : String
  sourceId : String
  targetRole : String
  targetId : String
  timestamp : String
  payload : Json
  checksum : String

def Envelope.tree (env : Envelope) : Json :=
  .object
    [("msg_type", .string env.msgType), ("source_role", .string env.sourceRole), ("source_id", .string env.sourceId),
      ("target_role", .string env.targetRole), ("target_id", .string env.targetId),
      ("timestamp", .string env.timestamp), ("payload", env.payload), ("checksum", .string env.checksum)]

def frameSize : Nat := 1024

def writeFrameTo (marshal : Envelope → Option (List UInt8)) (env : Envelope) : Option (List UInt8) :=
  (marshal env).bind fun data =>
    if frameSize < data.length then none else some (data ++ replicate (frameSize - data.length) 0)

def textOf (bytes : List UInt8) : String := String.ofList (bytes.map fun b => Char.ofNat b.toNat)

def rawJson (block : List UInt8) : String := textOf (cString block)

structure Envelope.Fits (env : Envelope) : Prop where
  msgType : env.msgType.length < messageTypeSize
  sourceRole : env.sourceRole.length < roleSize
  sourceId : env.sourceId.length < idSize
  targetRole : env.targetRole.length < roleSize
  targetId : env.targetId.length < idSize
  timestamp : env.timestamp.length < timestampSize
  checksum : env.checksum.length < checksumSize

structure SameHeader (msg : Message) (env : Envelope) : Prop where
  msgType : msg.msgType.text = env.msgType
  sourceRole : msg.sourceRole = env.sourceRole
  sourceId : msg.sourceId = env.sourceId
  targetRole : msg.targetRole = env.targetRole
  targetId : msg.targetId = env.targetId
  timestamp : msg.timestamp = env.timestamp
  checksum : msg.checksum = env.checksum

/-- The two libraries on an encoded envelope: the text has no zero byte, it is read
back, and without its closing brace it is no document. -/
structure Correct (marshal : Envelope → Option (List UInt8)) (parse : String → Option Json) (env : Envelope) :
    Prop where
  nonzero : ∀ data ∈ marshal env, 0 ∉ data
  parsed : ∀ data ∈ marshal env, parse (textOf data) = some env.tree
  rejected : ∀ data ∈ marshal env, parse (textOf data.dropLast) = none

theorem sameHeader_deserializeMessage {env : Envelope} (h : env.Fits) :
    SameHeader (deserializeMessage env.tree) env := by
  rw [deserializeMessage, field_eq rfl h.msgType, field_eq rfl h.sourceRole, field_eq rfl h.sourceId,
    field_eq rfl h.targetRole, field_eq rfl h.targetId, field_eq rfl h.timestamp, field_eq rfl h.checksum]
  exact ⟨text_msgTypeOf _, rfl, rfl, rfl, rfl, rfl, rfl⟩

theorem terminate_eq {block : List UInt8} (h : 0 < block.length) :
    terminate block = block.take (block.length - 1) ++ [0] := by
  rw [terminate, set_eq_take_append_cons_drop, if_pos (by omega), Nat.sub_add_cancel h, drop_length]

theorem terminate_padded {data : List UInt8} (h : data.length ≤ frameSize) :
    terminate (data ++ replicate (frameSize - data.length) 0) = storeField frameSize data := by
  have hlen : (data ++ replicate (frameSize - data.length) 0).length = frameSize := by
    rw [length_append, length_replicate]
    omega
  have hpos : 0 < (data ++ replicate (frameSize - data.length) 0).length := by
    rw [hlen]
    decide
  rw [terminate_eq hpos, hlen, take_append, take_replicate, append_assoc,
    ← replicate_succ', storeField, length_take]
  congr 2
  omega

def Survives (parse : String → Option Json) (env : Envelope) (block : List UInt8) : Prop :=
  ∃ msg, deserializeMessageFromJson parse (rawJson block) = some msg ∧ SameHeader msg env

variable {marshal : Envelope → Option (List UInt8)} {parse : String → Option Json} {env : Envelope}
  {frame : List UInt8}

theorem exists_of_writeFrameTo (h : writeFrameTo marshal env = some frame) : ∃ data, marshal env = some data ∧
    data.length ≤ frameSize ∧ frame = data ++ replicate (frameSize - data.length) 0 := by
  obtain ⟨data, hdata, hframe⟩ := Option.bind_eq_some_iff.mp h
  split at hframe
  · exact absurd hframe nofun
  · next hle => exact ⟨data, hdata, Nat.le_of_not_lt hle, (Option.some.inj hframe).symm⟩

theorem length_of_writeFrameTo (h : writeFrameTo marshal env = some frame) : frame.length = frameSize := by
  obtain ⟨data, -, hle, rfl⟩ := exists_of_writeFrameTo h
  rw [length_append, length_replicate]
  omega

theorem survives_iff (hcorrect : Correct marshal parse env) (hfits : env.Fits)
    (h : writeFrameTo marshal env = some frame) :
    Survives parse env (terminate frame) ↔ ∀ data ∈ marshal env, data.length < frameSize := by
  obtain ⟨data, hdata, hle, rfl⟩ := exists_of_writeFrameTo h
  have hraw : rawJson (terminate (data ++ replicate (frameSize - data.length) 0)) =
      textOf (data.take (frameSize - 1)) := by
    rw [terminate_padded hle, rawJson, cString_storeField_eq_take _ (hcorrect.nonzero data hdata)]
  rw [Survives, hraw, deserializeMessageFromJson]
  constructor
  · rintro ⟨msg, hmsg, -⟩ data' hdata'
    obtain rfl : data = data' := Option.some.inj (hdata.symm.trans hdata')
    refine Nat.lt_of_le_of_ne hle fun hfull => ?_
    rw [← hfull, ← dropLast_eq_take, hcorrect.rejected data hdata] at hmsg
    cases hmsg
  · intro hlt
    have htake : data.take (frameSize - 1) = data := take_of_length_le (Nat.le_pred_of_lt (hlt data hdata))
    rw [htake, hcorrect.parsed data hdata]
    exact ⟨_, rfl, sameHeader_deserializeMessage hfits⟩

theorem offered_frames (inputs : List Input) {frames : List (List UInt8)}
    (hlen : ∀ frame ∈ frames, frame.length = bufferSize) (h : frames.flatten <+: (run inputs).received) :
    (run inputs).offered.take frames.length = frames.map terminate := by
  obtain ⟨out, hoffered, htracks⟩ := (assembles_run inputs).tracks
  obtain ⟨rest, hrest⟩ := h
  have hframes : frames = blocks bufferSize frames.flatten := (tracks_flatten (by decide) frames hlen).out_eq
  have hpre : frames <+: out := by
    rw [htracks.out_eq, ← hrest]
    conv_lhs => rw [hframes]
    exact blocks_isPrefix _ _
  rw [hoffered, ← map_take, ← prefix_iff_eq_take.mp hpre]

/-- A frame of the gateway survives the way to the core exactly when its text is shorter than
the frame. -/
theorem gateway_frames_iff (marshal : Envelope → Option (List UInt8)) (parse : String → Option Json)
    (envelopes : List Envelope) (frames : List (List UInt8)) (inputs : List Input)
    (hcorrect : ∀ env ∈ envelopes, Correct marshal parse env) (hfits : ∀ env ∈ envelopes, env.Fits)
    (hwritten : Forall₂ (fun env frame => writeFrameTo marshal env = some frame) envelopes frames)
    (hreceived : frames.flatten <+: (run inputs).received) :
    Forall₂ (fun env block => Survives parse env block ↔ ∀ data ∈ marshal env, data.length < frameSize)
      envelopes ((run inputs).offered.take frames.length) := by
  have hlen : ∀ frame ∈ frames, frame.length = bufferSize := by
    clear hcorrect hfits hreceived
    induction hwritten with
    | nil => exact nofun
    | cons h _ ih => exact forall_mem_cons.mpr ⟨length_of_writeFrameTo h, ih⟩
  rw [offered_frames inputs hlen hreceived, forall₂_map_right_iff]
  clear hreceived hlen
  induction hwritten with
  | nil => exact .nil
  | cons h _ ih =>
    refine .cons (survives_iff (hcorrect _ mem_cons_self) (hfits _ mem_cons_self) h) (ih ?_ ?_)
    · exact fun env henv => hcorrect env (mem_cons_of_mem _ henv)
    · exact fun env henv => hfits env (mem_cons_of_mem _ henv)

def statusCommand (size : Nat) : Envelope where
  msgType := "GATEWAY_TO_SERVER__COMMAND"
  sourceRole := "GATEWAY"
  sourceId := "api_gateway"
  targetRole := "SERVER"
  targetId := "SERVER"
  timestamp := "2026-01-01T00:00:00.000Z"
  payload := .object [("command", .string "get_shipment_status"),
    ("args", .string (String.ofList (replicate size 'x')))]
  checksum := "A16C57"

def bytesOf (text : String) : List UInt8 := text.toUTF8.data.toList

def beforeArgs : String :=
  "\x7b\"msg_type\":\"GATEWAY_TO_SERVER__COMMAND\",\"source_role\":\"GATEWAY\",\"source_id\":\"api_gateway\"," ++
    "\"target_role\":\"SERVER\",\"target_id\":\"SERVER\",\"timestamp\":\"2026-01-01T00:00:00.000Z\"," ++
    "\"payload\":\x7b\"command\":\"get_shipment_status\",\"args\":\""

def afterArgs : String := "\"\x7d,\"checksum\":\"A16C57\"\x7d"

def statusBytes (size : Nat) : List UInt8 := bytesOf beforeArgs ++ replicate size 120 ++ bytesOf afterArgs

theorem length_statusBytes (size : Nat) : (statusBytes size).length = 248 + size := by
  have hbefore : (bytesOf beforeArgs).length = 225 := by decide +kernel
  have hafter : (bytesOf afterArgs).length = 23 := by decide +kernel
  rw [statusBytes, length_append, length_append, length_replicate]
  omega

theorem fits_statusCommand (size : Nat) : (statusCommand size).Fits := by
  constructor <;> (simp only [statusCommand]; decide)

def parseStatus (size : Nat) (text : String) : Option Json :=
  if text = textOf (statusBytes size) then some (statusCommand size).tree else none

theorem correct_parseStatus (size : Nat) :
    Correct (fun _ => some (statusBytes size)) (parseStatus size) (statusCommand size) where
  nonzero := by
    have hbefore : 0 ∉ bytesOf beforeArgs := by decide +kernel
    have hafter : 0 ∉ bytesOf afterArgs := by decide +kernel
    simp [statusBytes, hbefore, hafter]
  parsed := by
    rintro data ⟨⟩
    exact if_pos rfl
  rejected := by
    rintro data ⟨⟩
    refine if_neg fun h => ?_
    have hlen := congrArg String.length h
    simp only [textOf, String.length_ofList, length_map, length_dropLast, length_statusBytes] at hlen
    omega

def arrival : List UInt8 → List Input
  | [] => []
  | first :: more => [.event ⟨true, false, false, false⟩, .recvReturns (.data first more)]

theorem received_arrival {frame : List UInt8} (h : frame.length = bufferSize) :
    (run (arrival frame)).received = frame := by
  cases frame with
  | nil => rfl
  | cons first more =>
    have htake : (first :: more).take bufferSize = first :: more := take_of_length_le h.le
    change (readNext (store (readNext start false) ((first :: more).take bufferSize)) false).received = first :: more
    rw [htake, readNext]
    split <;> rfl

theorem exists_status_frame {size : Nat} (h : size ≤ 776) : ∃ frame, writeFrameTo (fun _ => some (statusBytes size))
    (statusCommand size) = some frame ∧ frame.length = bufferSize ∧ (run (arrival frame)).received = frame := by
  have hle : ¬ frameSize < (statusBytes size).length := by
    rw [length_statusBytes, frameSize]
    omega
  have hframe : writeFrameTo (fun _ => some (statusBytes size)) (statusCommand size) =
      some (statusBytes size ++ replicate (frameSize - (statusBytes size).length) 0) := if_neg hle
  exact ⟨_, hframe, length_of_writeFrameTo hframe, received_arrival (length_of_writeFrameTo hframe)⟩

theorem short_command_survives :
    ∃ frame, Forall₂ (fun env block =>
      Survives (parseStatus 4) env block ↔ ∀ data ∈ some (statusBytes 4), data.length < frameSize)
      [statusCommand 4] ((run (arrival frame)).offered.take [frame].length) := by
  obtain ⟨frame, hframe, -, hreceived⟩ := exists_status_frame (by decide : 4 ≤ 776)
  refine ⟨frame, gateway_frames_iff (fun _ => some (statusBytes 4)) (parseStatus 4) [statusCommand 4] [frame]
    (arrival frame) ?_ ?_ (.cons hframe .nil) ?_⟩
  · exact forall_mem_singleton.mpr (correct_parseStatus 4)
  · exact forall_mem_singleton.mpr (fits_statusCommand 4)
  · rw [flatten_singleton, hreceived]

/-- An encoding of 1024 bytes leaves no room for the terminator. -/
theorem full_frame_is_lost :
    Correct (fun _ => some (statusBytes 776)) (parseStatus 776) (statusCommand 776) ∧ (statusCommand 776).Fits ∧
      ∃ frame, writeFrameTo (fun _ => some (statusBytes 776)) (statusCommand 776) = some frame ∧
        (run (arrival frame)).received = frame ∧ (run (arrival frame)).offered.take [frame].length = [terminate frame] ∧
        ¬ Survives (parseStatus 776) (statusCommand 776) (terminate frame) := by
  obtain ⟨frame, hframe, hlen, hreceived⟩ := exists_status_frame (Nat.le_refl 776)
  refine ⟨correct_parseStatus 776, fits_statusCommand 776, frame, hframe, hreceived, ?_, ?_⟩
  · have hpre : [frame].flatten <+: (run (arrival frame)).received := by rw [flatten_singleton, hreceived]
    exact offered_frames (arrival frame) (forall_mem_singleton.mpr hlen) hpre
  · rw [survives_iff (correct_parseStatus 776) (fits_statusCommand 776) hframe]
    intro hlt
    have hshort := hlt _ rfl
    rw [length_statusBytes] at hshort
    exact absurd hshort (Nat.lt_irrefl 1024)

end Logistics.GatewayFrames
