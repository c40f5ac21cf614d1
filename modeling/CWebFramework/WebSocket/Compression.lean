import CWebFramework.Misc.Bytes
import CWebFramework.Transition.Runs
import Mathlib.Data.List.Infix
import Mathlib.Data.List.ModifyLast

/-!
# Compressed frames

The calls of `websocketsresponse.c` that put a frame into a response, on a
connection with one deflate stream.  What the stream makes of a payload depends
on the payloads that it has taken since its last reset, and the peer can read
it only if these are the last ones that the peer has read.  A call that finds a
compressed frame in the response discards it, and nothing resets the stream
then.  A file stays in the response until `websocketsresponse_reset`, and
`__write` sends it behind the frame that it finds.  Allocations succeed, files
do not change, and a header is the code and the length of its frame.
-/

namespace CWebFramework.WebSocket

open Transition

def deflateTrailer : Bytes := [0x00, 0x00, 0xff, 0xff]

/-- What is left of the output of `deflate` without the trailer. -/
def stripTrailer (output : Bytes) : Bytes :=
  if deflateTrailer.isSuffixOf output then output.take (output.length - 4)
  else output

/-- The deflate stream and the inflate stream of the peer, by the payloads that
they have taken.  `none` is a status other than `Z_OK`. -/
structure Codec where
  deflate : List Bytes → Bytes → Option Bytes
  inflate : List Bytes → Bytes → Option Bytes
  inflate_iff : ∀ {context payload output}, deflate context payload = some output → ∀ seen,
      inflate seen (stripTrailer output) = some payload ↔ context <:+ seen

/-- `ws_deflate_config_t`, as far as it concerns sending. -/
structure DeflateConfig where
  deflateInit : Bool
  serverNoContextTakeover : Bool
  deriving DecidableEq, Repr

/-- A frame, with the payload that its call was given: the length is the one in
the header, and the body is what follows up to the next header. -/
structure SentFrame where
  frameCode : UInt8
  length : Nat
  body : Bytes
  payload : Bytes
  deriving DecidableEq, Repr

def SentFrame.isCompressed (frame : SentFrame) : Bool := frame.frameCode &&& 0x40 != 0

def SentFrame.append (frame : SentFrame) (file : Bytes) : SentFrame :=
  { frame with body := frame.body ++ file }

/-- The deflate stream of a connection, `body` and `file_` of the current
response, the frames that a broadcast has taken from it, and the frames that
have been transmitted.  A response without a file has an empty one. -/
structure Sender where
  context : List Bytes
  staged : Option SentFrame
  file : Bytes
  batch : List SentFrame
  sent : List SentFrame
  deriving DecidableEq, Repr

namespace Sender

def start : Sender where
  context := []
  staged := none
  file := []
  batch := []
  sent := []

/-- `websocketsresponse_prepare`: the frame replaces the one in the body, and the
file stays. -/
def prepare (sender : Sender) (frameCode : UInt8) (length : Nat) (body payload : Bytes) : Sender :=
  { sender with staged := some ⟨frameCode, length, body, payload⟩ }

def reset (sender : Sender) : Sender :=
  { sender with staged := none, file := [] }

def deflateReset (sender : Sender) : Sender :=
  { sender with context := [] }

end Sender

def compressThreshold : Nat := 128

section Calls

variable (codec : Codec) (config : DeflateConfig)

/-- `__compress_and_send`, and whether it succeeded. -/
def compressAndSend (opcode : UInt8) (data : Bytes) (sender : Sender) : Bool × Sender :=
  if (2 ^ 32 - 1) / 2 < data.length then (false, sender)
  else
    match codec.deflate sender.context data with
    | none => (false, sender.deflateReset)
    | some output =>
      let compressed := stripTrailer output
      if data.length ≤ compressed.length then (false, sender.deflateReset)
      else
        let taken := { sender with context := sender.context ++ [data] }
        let prepared := taken.prepare (0xc0 ||| opcode) compressed.length compressed data
        (true, if config.serverNoContextTakeover then prepared.deflateReset
          else prepared)

def sendDatan (opcode : UInt8) (data : Bytes) (sender : Sender) : Sender :=
  if config.deflateInit && decide (compressThreshold ≤ data.length) then
    match compressAndSend codec config opcode data sender with
    | (true, sender) => sender
    | (false, sender) =>
      sender.prepare (0x80 ||| opcode) data.length data data
  else
    sender.prepare (0x80 ||| opcode) data.length data data

def sendDefault (text : Bytes) (sender : Sender) : Sender :=
  sendDatan codec config 0x01 text sender.reset

/-- `websocketsresponse_filen`, with the content of the file or the text that
says why there is none. -/
def sendFilen (file : Except Bytes Bytes) (sender : Sender) : Sender :=
  match file with
  | .error text => sendDefault codec config text sender
  | .ok content =>
    { sender with file := content }.prepare 0x82 content.length [] content

/-- The calls of handlers; `detach` is `websocketsresponse_detach_body` behind a
handler of a broadcast, and `finish` the writing of the response. -/
inductive SendAction where
  | text (data : Bytes)
  | binary (data : Bytes)
  | file (file : Except Bytes Bytes)
  | default (text : Bytes)
  | detach
  | finish

def sendAction (sender : Sender) : SendAction → Sender
  | .text data => sendDatan codec config 0x01 data sender
  | .binary data => sendDatan codec config 0x02 data sender
  | .file file => sendFilen codec config file sender
  | .default text => sendDefault codec config text sender
  | .detach =>
    { sender with
      staged := none
      batch := sender.batch ++ sender.staged.toList }
  | .finish =>
    { sender.reset with
      batch := []
      -- The file goes out behind the last frame, whatever that is.
      sent := sender.sent ++ (sender.batch ++ sender.staged.toList).modifyLast
        (SentFrame.append · sender.file) }

def senderSystem : System Sender SendAction where
  perform := fun sender action => some (sendAction codec config sender action)

end Calls

/-! ## Decoding -/

def compressedPayloads (frames : List SentFrame) : List Bytes :=
  (frames.filter SentFrame.isCompressed).map SentFrame.payload

/-- The next header stands where the peer expects it. -/
def SentFrame.IsWhole (frame : SentFrame) : Prop := frame.body.length = frame.length

/-- The peer finds every compressed frame, and the frame decodes behind the
compressed frames in front of it to the payload of its call. -/
def Decodable (codec : Codec) (frames : List SentFrame) : Prop :=
  ∀ front frame back, frames = front ++ frame :: back → frame.isCompressed = true →
    (∀ earlier ∈ front, earlier.IsWhole) ∧ codec.inflate (compressedPayloads front)
        (frame.body.take frame.length) = some frame.payload

/-- The frame in the response is not compressed, or the stream is reset behind
each frame. -/
def Sender.MayDiscard (config : DeflateConfig) (sender : Sender) : Prop :=
  config.serverNoContextTakeover = true ∨ ∀ frame ∈ sender.staged, frame.isCompressed = false

/-- A call does not discard a compressed frame, and finds no file if its frame
is to go out without one. -/
def FindsNoFrame (config : DeflateConfig) (sender : Sender) : SendAction → Prop
  | .finish => True
  | .detach => sender.file = []
  | .text _ | .binary _ => sender.MayDiscard config ∧ sender.file = []
  | .file _ | .default _ => sender.MayDiscard config

def Sender.front (sender : Sender) : List SentFrame := sender.sent ++ sender.batch

/-- All frames, with the file behind the one in the response. -/
def Sender.frames (sender : Sender) : List SentFrame :=
  sender.front ++ (sender.staged.map (SentFrame.append · sender.file)).toList

section Decoding

variable {codec : Codec} {config : DeflateConfig} {frames : List SentFrame}

theorem compressedPayloads_concat (frames : List SentFrame) (frame : SentFrame) :
    compressedPayloads (frames ++ [frame]) =
      if frame.isCompressed then compressedPayloads frames ++ [frame.payload]
      else compressedPayloads frames := by
  rw [compressedPayloads, List.filter_append, List.map_append]
  cases isCompressed : frame.isCompressed with
  | true =>
    rw [List.filter_cons_of_pos isCompressed]
    rfl
  | false =>
    rw [List.filter_cons_of_neg (by simp [isCompressed]), List.filter_nil,
      List.map_nil, List.append_nil]
    rfl

theorem Decodable.front {back : List SentFrame} (decodable : Decodable codec (frames ++ back)) :
    Decodable codec frames := by
  intro first frame rest isSplit
  apply decodable first frame (rest ++ back)
  rw [isSplit, List.append_assoc]
  rfl

theorem Decodable.concat {frame : SentFrame} (decodable : Decodable codec frames)
    (whole : ∀ earlier ∈ frames, earlier.IsWhole)
    (decodes : frame.isCompressed = true → codec.inflate (compressedPayloads frames)
        (frame.body.take frame.length) = some frame.payload) :
    Decodable codec (frames ++ [frame]) := by
  intro first other rest isSplit isCompressed
  rcases List.eq_nil_or_concat rest with rfl | ⟨before, last, rfl⟩
  · obtain ⟨rfl, same⟩ := List.append_inj' isSplit rfl
    cases same
    exact ⟨whole, decodes isCompressed⟩
  · rw [List.concat_eq_append, ← List.cons_append, ← List.append_assoc] at isSplit
    obtain ⟨rfl, -⟩ := List.append_inj' isSplit rfl
    exact decodable first other before rfl isCompressed

/-- The frames are whole and decode, and what the stream has taken since its last
reset is what the peer has read last. -/
structure InStep (codec : Codec) (config : DeflateConfig)
    (context : List Bytes) (frames : List SentFrame) : Prop where
  whole : ∀ frame ∈ frames, frame.IsWhole
  decodable : Decodable codec frames
  read : context <:+ compressedPayloads frames
  fresh : config.serverNoContextTakeover = true → context = []

namespace InStep

variable {context : List Bytes} {frame : SentFrame}

theorem reset (inStep : InStep codec config context frames) : InStep codec config [] frames :=
  ⟨inStep.whole, inStep.decodable, List.nil_suffix, fun _ => rfl⟩

/-- A frame that is not compressed may be discarded, and any frame if the
stream is reset behind each frame. -/
theorem discard {staged : Option SentFrame}
    (inStep : InStep codec config context (frames ++ staged.toList))
    (harmless : config.serverNoContextTakeover = true ∨
      ∀ frame ∈ staged, frame.isCompressed = false) :
    InStep codec config context frames := by
  refine ⟨(List.forall_mem_append.mp inStep.whole).1, inStep.decodable.front, ?_, inStep.fresh⟩
  rcases harmless with noTakeover | plain
  · rw [inStep.fresh noTakeover]
    exact List.nil_suffix
  · have read := inStep.read
    cases staged with
    | none => rwa [Option.toList_none, List.append_nil] at read
    | some frame =>
      rwa [Option.toList_some, compressedPayloads_concat,
        plain frame rfl, if_neg Bool.noConfusion] at read

theorem whole_concat (inStep : InStep codec config context frames)
    (isWhole : frame.IsWhole) : ∀ other ∈ frames ++ [frame], other.IsWhole :=
  List.forall_mem_append.mpr ⟨inStep.whole, List.forall_mem_singleton.mpr isWhole⟩

private theorem plain (inStep : InStep codec config context frames)
    (isWhole : frame.IsWhole) (isPlain : frame.isCompressed = false) :
    InStep codec config context (frames ++ [frame]) := by
  refine ⟨inStep.whole_concat isWhole, inStep.decodable.concat inStep.whole ?_, ?_, inStep.fresh⟩
  · rw [isPlain]
    exact nofun
  · rw [compressedPayloads_concat, isPlain, if_neg Bool.noConfusion]
    exact inStep.read

private theorem compressed (inStep : InStep codec config context frames) (isWhole : frame.IsWhole)
    {output : Bytes} (isOutput : codec.deflate context frame.payload = some output)
    (isBody : frame.body = stripTrailer output)
    (isCompressed : frame.isCompressed = true) :
    InStep codec config (if config.serverNoContextTakeover then [] else context ++ [frame.payload])
      (frames ++ [frame]) := by
  refine ⟨inStep.whole_concat isWhole,
    inStep.decodable.concat inStep.whole fun _ => ?_, ?_, fun noTakeover =>
    if_pos noTakeover⟩
  · rw [List.take_of_length_le isWhole.le, isBody]
    exact (codec.inflate_iff isOutput _).mpr inStep.read
  · rw [compressedPayloads_concat, if_pos isCompressed]
    split_ifs
    · exact List.nil_suffix
    · exact (List.suffix_append_inj_of_length_eq rfl).mpr ⟨inStep.read, rfl⟩

end InStep

/-- The frames of a sender and its stream.  A file has its frame. -/
structure Sender.InStep (codec : Codec) (config : DeflateConfig) (sender : Sender) : Prop where
  frames : WebSocket.InStep codec config sender.context sender.frames
  noFile : sender.staged = none → sender.file = []

variable {sender : Sender}

theorem Sender.InStep.discard (inStep : sender.InStep codec config)
    (mayDiscard : sender.MayDiscard config) :
    WebSocket.InStep codec config sender.context sender.front := by
  refine inStep.frames.discard (mayDiscard.imp_right fun plain => ?_)
  intro frame isFrame
  obtain ⟨staged, isStaged, rfl⟩ := Option.mem_map.mp isFrame
  exact plain staged isStaged

private theorem append_nil_map (staged : Option SentFrame) :
    staged.map (SentFrame.append · []) = staged := by
  cases staged with
  | none => rfl
  | some frame =>
    rw [Option.map_some, SentFrame.append, List.append_nil]

/-- What is written are the frames. -/
theorem Sender.InStep.written (inStep : sender.InStep codec config) :
    sender.sent ++ (sender.batch ++ sender.staged.toList).modifyLast
        (SentFrame.append · sender.file) = sender.frames := by
  rw [Sender.frames, Sender.front, List.append_assoc]
  cases isStaged : sender.staged with
  | none =>
    rw [inStep.noFile isStaged, Option.toList_none, List.append_nil]
    refine congrArg _ ((?_ : _ = sender.batch).trans (List.append_nil _).symm)
    rcases List.eq_nil_or_concat sender.batch with isEmpty | ⟨_, last, isBatch⟩
    · rw [isEmpty]
      rfl
    · rw [isBatch, List.concat_eq_append, List.modifyLast_concat, SentFrame.append, List.append_nil]
  | some frame =>
    rw [Option.toList_some, List.modifyLast_concat]
    rfl

def IsData (opcode : UInt8) : Prop := opcode = 0x01 ∨ opcode = 0x02

theorem IsData.bits {opcode : UInt8} (isData : IsData opcode) :
    ((0x80 ||| opcode) &&& 0x40 != 0) = false ∧ ((0xc0 ||| opcode) &&& 0x40 != 0) = true := by
  rcases isData with rfl | rfl <;> decide

/-- A frame whose length is that of its body and of the file. -/
theorem prepare_inStep {opcode : UInt8} {length : Nat} {body payload : Bytes}
    (isData : IsData opcode) (inStep : InStep codec config sender.context sender.front)
    (isLength : (body ++ sender.file).length = length) :
    (sender.prepare (0x80 ||| opcode) length body payload).InStep codec
      config :=
  ⟨inStep.plain isLength isData.bits.1, nofun⟩

/-- The frame is compressed, or the stream is not ahead of the peer. -/
theorem compressAndSend_inStep {opcode : UInt8} (isData : IsData opcode)
    (inStep : InStep codec config sender.context sender.front)
    (noFile : sender.file = []) (data : Bytes) :
    let result := compressAndSend codec config opcode data sender
    (result.1 = true → result.2.InStep codec config) ∧ (result.1 = false →
        InStep codec config result.2.context result.2.front ∧ result.2.file = []) := by
  dsimp only
  rw [compressAndSend]
  by_cases tooLong : (2 ^ 32 - 1) / 2 < data.length
  · rw [if_pos tooLong]
    exact ⟨nofun, fun _ => ⟨inStep, noFile⟩⟩
  · rw [if_neg tooLong]
    cases isOutput : codec.deflate sender.context data with
    | none => exact ⟨nofun, fun _ => ⟨inStep.reset, noFile⟩⟩
    | some output =>
      dsimp only
      by_cases isLong : data.length ≤ (stripTrailer output).length
      · rw [if_pos isLong]
        exact ⟨nofun, fun _ => ⟨inStep.reset, noFile⟩⟩
      · rw [if_neg isLong]
        refine ⟨fun _ => ?_, nofun⟩
        have isBody : stripTrailer output ++ sender.file =
            stripTrailer output := by
          rw [noFile, List.append_nil]
        have staged := @InStep.compressed codec config _ _
          ⟨0xc0 ||| opcode, (stripTrailer output).length,
            stripTrailer output ++ sender.file, data⟩ inStep
          (congrArg List.length isBody) _ isOutput isBody isData.bits.2
        cases noTakeover : config.serverNoContextTakeover with
        | true =>
          rw [noTakeover] at staged
          exact ⟨staged, nofun⟩
        | false =>
          rw [noTakeover] at staged
          exact ⟨staged, nofun⟩

theorem sendDatan_inStep {opcode : UInt8} (isData : IsData opcode)
    (inStep : InStep codec config sender.context sender.front)
    (noFile : sender.file = []) (data : Bytes) :
    (sendDatan codec config opcode data sender).InStep codec config := by
  have isLength {file : Bytes} (isEmpty : file = []) : (data ++ file).length = data.length := by
    rw [isEmpty, List.append_nil]
  rw [sendDatan]
  split_ifs
  · have sends := compressAndSend_inStep isData inStep noFile data
    rcases isResult : compressAndSend codec config opcode data sender with
      ⟨isSent, next⟩
    rw [isResult] at sends
    cases isSent with
    | true => exact sends.1 rfl
    | false =>
      exact prepare_inStep isData (sends.2 rfl).1 (isLength (sends.2 rfl).2)
  · exact prepare_inStep isData inStep (isLength noFile)

private theorem sendDefault_inStep (inStep : sender.InStep codec config)
    (mayDiscard : sender.MayDiscard config) (text : Bytes) :
    (sendDefault codec config text sender).InStep codec config :=
  @sendDatan_inStep _ _ sender.reset _ (.inl rfl) (inStep.discard mayDiscard) rfl text

theorem sendAction_inStep {action : SendAction} (condition : FindsNoFrame config sender action)
    (inStep : sender.InStep codec config) :
    (sendAction codec config sender action).InStep codec config := by
  cases action with
  | text data =>
    exact sendDatan_inStep (.inl rfl) (inStep.discard condition.1) condition.2 data
  | binary data =>
    exact sendDatan_inStep (.inr rfl) (inStep.discard condition.1) condition.2 data
  | file file =>
    cases file with
    | error text => exact sendDefault_inStep inStep condition text
    | ok content =>
      exact @prepare_inStep _ _ { sender with file := content } 0x02 _ _ _
        (.inr rfl) (inStep.discard condition) rfl
  | default text => exact sendDefault_inStep inStep condition text
  | detach =>
    have noFile : sender.file = [] := condition
    have frames := inStep.frames
    rw [Sender.frames, noFile, append_nil_map, Sender.front, List.append_assoc] at frames
    refine ⟨?_, fun _ => noFile⟩
    show WebSocket.InStep codec config sender.context
      (sender.sent ++ (sender.batch ++ sender.staged.toList) ++ [])
    rwa [List.append_nil]
  | finish =>
    refine ⟨?_, fun _ => rfl⟩
    show WebSocket.InStep codec config sender.context
      (sender.sent ++ (sender.batch ++ sender.staged.toList).modifyLast
        (SentFrame.append · sender.file) ++ [] ++ [])
    rw [List.append_nil, List.append_nil, inStep.written]
    exact inStep.frames

/-- When no call finds a compressed frame or a file in the response, every
compressed frame that is transmitted decodes to the payload of its call. -/
theorem sent_decodable {actions : List SendAction} {reached : Sender}
    (meets : (senderSystem codec config).Meets (FindsNoFrame config) .start actions)
    (run : (senderSystem codec config).exec .start actions = some reached) :
    Decodable codec reached.sent := by
  have start : Sender.start.InStep codec config := by
    refine ⟨⟨nofun, fun front frame back isSplit => ?_, List.nil_suffix,
      fun _ => rfl⟩, fun _ => rfl⟩
    cases front <;> cases isSplit
  have inStep : reached.InStep codec config := by
    refine (senderSystem codec config).exec_invariant
      (fun condition performed held => ?_) meets run start
    cases performed
    exact sendAction_inStep condition held
  exact inStep.frames.decodable.front.front

end Decoding

/-! ## A discarded frame -/

def letters : Bytes := List.replicate 128 97

def letterCodec : Codec where
  deflate := fun context payload =>
    if payload = letters then
      if context = [] then some [1]
      else if context = [letters] then some [2]
      else none
    else none
  inflate := fun seen body =>
    if body = [1] then some letters
    else if body = [2] ∧ [letters].isSuffixOf seen = true then some letters
    else none
  inflate_iff := by
    intro context payload output isOutput seen
    split_ifs at isOutput with isLetters isFirst isSecond
    · cases isOutput
      rw [isLetters, isFirst]
      exact iff_of_true rfl List.nil_suffix
    · cases isOutput
      rw [isLetters, isSecond, ← List.isSuffixOf_iff_suffix]
      show (if stripTrailer [2] = [1] then _ else _) = _ ↔ _
      rw [show stripTrailer [2] = [2] by decide, if_neg (by decide)]
      simp

theorem sendDatan_letters {sender : Sender} {code : UInt8}
    (isOutput : letterCodec.deflate sender.context letters = some [code]) :
    sendDatan letterCodec ⟨true, false⟩ 0x01 letters sender =
      { sender with
        context := sender.context ++ [letters]
        staged := some ⟨0xc1, 1, [code], letters⟩ } := by
  have length : letters.length = 128 := List.length_replicate
  have isStripped : stripTrailer [code] = [code] := by
    simp [stripTrailer, deflateTrailer, List.isSuffixOf]
  rw [sendDatan, if_pos (by rw [length]; rfl), compressAndSend,
    if_neg (by rw [length]; decide), isOutput]
  dsimp only
  rw [isStripped, if_neg (by rw [length, List.length_singleton]; decide)]
  rfl

theorem letterCodec_deflate : letterCodec.deflate [] letters = some [1] ∧
      letterCodec.deflate [letters] letters = some [2] := by
  simp only [letterCodec, if_true, List.cons_ne_nil, if_false, and_self]

/-- Two handlers with one call each. -/
theorem sent_decodable_twice : Decodable letterCodec
      [⟨0xc1, 1, [1], letters⟩, ⟨0xc1, 1, [2], letters⟩] := by
  have first := @sendDatan_letters .start 1 letterCodec_deflate.1
  have second := @sendDatan_letters ⟨[letters], none, [], [], [⟨0xc1, 1, [1], letters⟩]⟩ 2
    letterCodec_deflate.2
  have run : (senderSystem letterCodec ⟨true, false⟩).exec .start
      [.text letters, .finish, .text letters, .finish] =
      some ⟨[letters, letters], none, [], [],
        [⟨0xc1, 1, [1], letters⟩, ⟨0xc1, 1, [2], letters⟩]⟩ := by
    refine (System.exec_cons_iff _).mpr ⟨_, congrArg some first, ?_⟩
    refine (System.exec_cons_iff _).mpr ⟨_, rfl, ?_⟩
    exact (System.exec_cons_iff _).mpr ⟨_, congrArg some second, rfl⟩
  refine @sent_decodable letterCodec ⟨true, false⟩ _ _ ?_ run
  have mayCall {context : List Bytes} {sent : List SentFrame} :
      Sender.MayDiscard ⟨true, false⟩ ⟨context, none, [], [], sent⟩ :=
    .inr (by rintro _ ⟨⟩)
  refine ⟨⟨mayCall, rfl⟩, fun _ _ => ⟨trivial, fun _ finished => ?_⟩⟩
  rw [← Option.some.inj finished]
  exact ⟨⟨mayCall, rfl⟩, fun _ _ => ⟨trivial, fun _ _ => trivial⟩⟩

/-- The second call discards the frame of the first one, and the peer has not
read what the second frame refers to.  A file from before the first call stands
between the two frames, and the peer does not find the second one. -/
theorem undecodable_of_discarded : (∃ reached, (senderSystem letterCodec ⟨true, false⟩).exec .start
        [.text letters, .text letters, .finish] = some reached ∧
      ¬Decodable letterCodec reached.sent) ∧
    ∃ reached, (senderSystem letterCodec ⟨true, false⟩).exec .start
        [.file (.ok [7]), .text letters, .finish, .text letters, .finish] = some reached ∧
      ¬Decodable letterCodec reached.sent := by
  constructor
  · have first := @sendDatan_letters .start 1 letterCodec_deflate.1
    have second := @sendDatan_letters ⟨[letters], some ⟨0xc1, 1, [1], letters⟩, [], [], []⟩ 2
      letterCodec_deflate.2
    refine ⟨⟨[letters, letters], none, [], [], [⟨0xc1, 1, [2], letters⟩]⟩, ?_, fun decodable => ?_⟩
    · refine (System.exec_cons_iff _).mpr ⟨_, congrArg some first, ?_⟩
      exact (System.exec_cons_iff _).mpr ⟨_, congrArg some second, rfl⟩
    · have decodes := (decodable [] _ [] rfl rfl).2
      cases decodes
  · have first := @sendDatan_letters
      ⟨[], some ⟨0x82, 1, [], [7]⟩, [7], [], []⟩ 1 letterCodec_deflate.1
    have second := @sendDatan_letters ⟨[letters], none, [], [], [⟨0xc1, 1, [1, 7], letters⟩]⟩ 2
      letterCodec_deflate.2
    refine ⟨⟨[letters, letters], none, [], [],
      [⟨0xc1, 1, [1, 7], letters⟩, ⟨0xc1, 1, [2], letters⟩]⟩, ?_,
      fun decodable => ?_⟩
    · refine (System.exec_cons_iff _).mpr ⟨_, rfl, ?_⟩
      refine (System.exec_cons_iff _).mpr ⟨_, congrArg some first, ?_⟩
      refine (System.exec_cons_iff _).mpr ⟨_, rfl, ?_⟩
      exact (System.exec_cons_iff _).mpr ⟨_, congrArg some second, rfl⟩
    · have isWhole := (decodable [_] _ [] rfl rfl).1 _ List.mem_cons_self
      cases isWhole

end CWebFramework.WebSocket
