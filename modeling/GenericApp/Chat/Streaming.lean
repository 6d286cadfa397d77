import GenericApp.Chat.ChatMessages
import GenericApp.Foundation.Json
import GenericApp.Foundation.Splitting

/-!
# The events of a chat on the wire

The service encodes each event as a block of server-sent events, `encode_sse_event`, with keep-alive comments in
between. The client appends what it reads to a buffer and takes the whole blocks off it, `parseSseBuffer`; what is
left waits for the next read. The events that it finds are the envelopes that have been encoded, wherever the text is
cut (`sse_stream_reads_back`).
-/

namespace GenericApp

open Py

/-! ### What is encoded -/

/-- `ChatSource`, with the fields that no answer of the service sets. -/
structure FullChatSource where
  source : ChatSource
  metadata : List (Text × Json) := []
  available : Bool := true

/-- `ChatStreamEvent`, with all fields. -/
inductive ChatStreamPayload
  | status (status : ChatStatus)
  | source (source : FullChatSource)
  | token (token : String)
  | final (messageId answer : String) (sources : List FullChatSource) (route : Option ChatRouteDecision)
  | error (code message : String) (retryable : Bool)
  | cancelled (message : String := "Generation cancelled")

def ChatStreamPayload.event : ChatStreamPayload → String
  | .status _ => "status"
  | .source _ => "source"
  | .token _ => "token"
  | .final .. => "final"
  | .error .. => "error"
  | .cancelled _ => "cancelled"

def ChatMode.name : ChatMode → String
  | .auto => "auto"
  | .documents => "documents"
  | .general => "general"
  | .web => "web"

def ChatSourceKind.name : ChatSourceKind → String
  | .document => "document"
  | .web => "web"
  | .memory => "memory"

def ChatStatus.name : ChatStatus → String
  | .queued => "queued"
  | .retrieving => "retrieving"
  | .generating => "generating"
  | .completed => "completed"

section Dump

-- `float.__repr__`
variable (repr : ℚ → NumberLiteral)

def jsonString (s : String) : Json := .string s.toList

def jsonInt (n : ℤ) : Json := .number (intLiteral n)

/-- A field that may be `None`. -/
def jsonOr {α : Type} (dump : α → Json) (value : Option α) : Json := value.elim .null dump

def jsonFields (fields : List (String × Json)) : Json := .object (fields.map fun (name, v) ↦ (name.toList, v))

/-- `ChatSource.model_dump(mode="json")` -/
def FullChatSource.modelDump (s : FullChatSource) : Json :=
  jsonFields
    [("source_id", jsonString s.source.sourceId), ("kind", jsonString s.source.kind.name),
      ("title", jsonString s.source.title), ("document_id", jsonOr jsonString s.source.documentId),
      ("chunk_id", jsonOr jsonString s.source.chunkId), ("url", jsonOr jsonString s.source.url),
      ("snippet", jsonOr jsonString s.source.snippet), ("score", jsonOr (.number <| repr ·) s.source.score),
      ("page_number", jsonOr jsonInt s.source.pageNumber),
      ("chunk_index", jsonOr (fun n : ℕ ↦ jsonInt n) s.source.chunkIndex),
      ("rank", jsonOr (fun n : ℕ ↦ jsonInt n) s.source.rank),
      ("published_at", jsonOr jsonString s.source.publishedAt), ("metadata", .object s.metadata),
      ("available", .bool s.available)]

/-- `ChatRouteDecision.model_dump(mode="json")` -/
def ChatRouteDecision.modelDump (r : ChatRouteDecision) : Json :=
  jsonFields
    [("mode", jsonString r.mode.name), ("reason", jsonString r.reason), ("confidence", jsonString r.confidence),
      ("use_documents", .bool r.useDocuments), ("use_memory", .bool r.useMemory), ("use_web", .bool r.useWeb),
      ("search_query", jsonOr jsonString r.searchQuery)]

/-- The fields of an event behind its name. -/
def ChatStreamPayload.fields : ChatStreamPayload → List (String × Json)
  | .status s => [("status", jsonString s.name)]
  | .source s => [("source", s.modelDump repr)]
  | .token t => [("token", jsonString t)]
  | .final messageId answer sources route =>
    [("message_id", jsonString messageId), ("answer", jsonString answer),
      ("sources", .array (sources.map (FullChatSource.modelDump repr))),
      ("route", jsonOr ChatRouteDecision.modelDump route)]
  | .error code message retryable =>
    [("code", jsonString code), ("message", jsonString message), ("retryable", .bool retryable)]
  | .cancelled message => [("message", jsonString message)]

/-- `ChatEventEnvelope(sequence=sequence, payload=payload).model_dump(mode="json")` -/
def chatEventEnvelope (sequence : ℕ) (payload : ChatStreamPayload) : Json :=
  jsonFields
    [("contract_version", jsonString "v1"), ("sequence", jsonInt sequence),
      ("payload", jsonFields (("event", jsonString payload.event) :: payload.fields repr))]

/-- The lines of an encoded event. -/
def eventLine (payload : ChatStreamPayload) : Text := "event: ".toList ++ payload.event.toList

def dataLine (sequence : ℕ) (payload : ChatStreamPayload) : Text :=
  "data: ".toList ++ jsonDumps (chatEventEnvelope repr sequence payload)

/-- `encode_sse_event` -/
def encodeSseEvent (sequence : ℕ) (payload : ChatStreamPayload) : Text :=
  eventLine payload ++ '\n' :: (dataLine repr sequence payload ++ ['\n', '\n'])

def keepAliveComment : Text := ": keep-alive".toList

/-- What the service sends. -/
inductive SseItem
  | keepAlive
  | event (sequence : ℕ) (payload : ChatStreamPayload)

def SseItem.encode : SseItem → Text
  | .keepAlive => keepAliveComment ++ ['\n', '\n']
  | .event sequence payload => encodeSseEvent repr sequence payload

/-- The envelope of an item, if it is an event. -/
def SseItem.envelope : SseItem → Option Json
  | .keepAlive => none
  | .event sequence payload => some (chatEventEnvelope repr sequence payload)

end Dump

/-! ### What is read -/

/-- The white space of JavaScript. -/
def isJsSpace (c : Char) : Bool :=
  let n := c.toNat
  (9 ≤ n ∧ n ≤ 13) ∨ n = 32 ∨ n = 160 ∨ n = 0x1680 ∨ (0x2000 ≤ n ∧ n ≤ 0x200a) ∨ n = 0x2028 ∨ n = 0x2029 ∨ n = 0x202f ∨
    n = 0x205f ∨ n = 0x3000 ∨ n = 0xfeff

/-- `x.trim()` -/
def jsTrim (x : Text) : Text := ((x.dropWhile isJsSpace).reverse.dropWhile isJsSpace).reverse

def dataPrefix : Text := "data:".toList

/-- The data of a block, without the prefix and trimmed; it is empty where there is none. -/
def blockData (block : Text) : Text :=
  match (lineEnd.pieces block).find? (dataPrefix.isPrefixOf ·) with
  | some line => jsTrim (line.drop dataPrefix.length)
  | none => []

/-- The event of a block. What is not JSON, and what has no payload, is passed over. -/
def blockEvent (block : Text) : Option Json :=
  if blockData block = [] then none
  else
    match jsonParse (blockData block) with
    | some parsed => if (parsed.member "payload".toList).any Json.truthy then some parsed else none
    | none => none

/-- `parseSseBuffer` -/
def parseSseBuffer (buffer : Text) : List Json × Text :=
  ((blankLine.split buffer).1.filterMap blockEvent, (blankLine.split buffer).2)

/-- One turn of the loop that reads the stream: the envelopes found so far, and the buffer. -/
def readChunk (read : List Json × Text) (chunk : Text) : List Json × Text :=
  let parsed := parseSseBuffer (read.2 ++ chunk)
  (read.1 ++ parsed.1, parsed.2)

def readStream (chunks : List Text) : List Json × Text := chunks.foldl readChunk ([], [])

/-! ### Wherever the text is cut -/

/-- What the blocks that have been split off hold. -/
def decodeBlocks (found : List Text × Text) : List Json × Text := (found.1.filterMap blockEvent, found.2)

theorem readChunk_decodeBlocks (found : List Text × Text) (chunk : Text) :
    readChunk (decodeBlocks found) chunk = decodeBlocks (blankLine.feed found chunk) := by
  rw [decodeBlocks, decodeBlocks, Separator.feed, List.filterMap_append]
  rfl

/-- Any text is read as if it had come at once. -/
theorem readStream_eq (chunks : List Text) : readStream chunks = parseSseBuffer chunks.flatten := by
  have hfeed := blankLine.foldl_feed [] chunks
  rw [blankLine.split_nil, List.nil_append] at hfeed
  have hblocks : chunks.foldl readChunk (decodeBlocks ([], [])) = decodeBlocks (chunks.foldl blankLine.feed ([], [])) :=
    List.foldl_hom decodeBlocks readChunk_decodeBlocks
  rw [hfeed] at hblocks
  exact hblocks

/-! ### What has been encoded -/

section Encoded

variable (repr : ℚ → NumberLiteral)

theorem unbroken_of_printable {x : Text} (hx : Printable x) : Unbroken x :=
  ⟨fun h ↦ absurd (hx _ h).1 (by decide), fun h ↦ absurd (hx _ h).1 (by decide)⟩

theorem printable_event (payload : ChatStreamPayload) : Printable payload.event.toList := by
  have hnames : ∀ name ∈ ["status", "source", "token", "final", "error", "cancelled"], Printable name.toList := by
    decide
  refine hnames _ ?_
  cases payload with
  | _ => simp [ChatStreamPayload.event]

theorem unbroken_eventLine (payload : ChatStreamPayload) : Unbroken (eventLine payload) :=
  unbroken_of_printable (Printable.append (by decide) (printable_event payload))

theorem unbroken_dataLine (sequence : ℕ) (payload : ChatStreamPayload) : Unbroken (dataLine repr sequence payload) :=
  unbroken_of_printable (Printable.append (by decide) (printable_jsonDumps _))

theorem unbroken_keepAliveComment : Unbroken keepAliveComment := unbroken_of_printable (by decide)

/-- The text of an item before its blank line. -/
def SseItem.block : SseItem → Text
  | .keepAlive => keepAliveComment
  | .event sequence payload => eventLine payload ++ '\n' :: dataLine repr sequence payload

theorem cutBy_encode (item : SseItem) (x : Text) :
    cutBy afterBlankLine (item.encode repr ++ x) = some (item.block repr, x) := by
  cases item with
  | keepAlive =>
    rw [SseItem.encode, List.append_assoc]
    exact blankLine_cut unbroken_keepAliveComment x
  | event sequence payload =>
    have hne : dataLine repr sequence payload ≠ [] := List.append_ne_nil_of_left_ne_nil (by decide) _
    rw [SseItem.encode, encodeSseEvent, List.append_assoc, List.cons_append, List.append_assoc]
    exact blankLine_cut_cons (unbroken_eventLine payload) (unbroken_dataLine repr sequence payload) hne x

theorem split_encode (items : List SseItem) :
    blankLine.split (items.flatMap (SseItem.encode repr)) = (items.map (SseItem.block repr), []) := by
  induction items with
  | nil => exact blankLine.split_nil
  | cons item items ih =>
    rw [List.flatMap_cons, blankLine.split_of_some (cutBy_encode repr item _), ih]
    rfl

/-- The envelope is an object, so that there is nothing to trim at its ends. -/
theorem jsTrim_envelope (sequence : ℕ) (payload : ChatStreamPayload) :
    jsTrim (' ' :: jsonDumps (chatEventEnvelope repr sequence payload)) =
      jsonDumps (chatEventEnvelope repr sequence payload) := by
  obtain ⟨x, hx⟩ : ∃ x, jsonDumps (chatEventEnvelope repr sequence payload) = '{' :: (x ++ ['}']) := by
    rw [chatEventEnvelope, jsonFields, List.map_cons, jsonDumps]
    obtain ⟨x, hx⟩ := dumpMembers_concat (([("sequence", jsonInt sequence),
      ("payload", jsonFields (("event", jsonString payload.event) :: payload.fields repr))].map
        fun (name, v) ↦ (name.toList, v)))
    rw [hx]
    exact ⟨dumpString "contract_version".toList ++ (':' :: ' ' :: (jsonDumps (jsonString "v1") ++ x)), by simp⟩
  have hspace : jsTrim (' ' :: '{' :: (x ++ ['}'])) = '{' :: (x ++ ['}']) := by
    have hleft : (' ' :: '{' :: (x ++ ['}'])).dropWhile isJsSpace = '{' :: (x ++ ['}']) := rfl
    have hright : ('{' :: (x ++ ['}'])).reverse.dropWhile isJsSpace = ('{' :: (x ++ ['}'])).reverse := by
      rw [← List.cons_append, List.reverse_append]
      rfl
    rw [jsTrim, hleft, hright, List.reverse_reverse]
  rw [hx, hspace]

theorem blockData_event (sequence : ℕ) (payload : ChatStreamPayload) :
    blockData (eventLine payload ++ '\n' :: dataLine repr sequence payload) =
      jsonDumps (chatEventEnvelope repr sequence payload) := by
  have hpieces : lineEnd.pieces (eventLine payload ++ '\n' :: dataLine repr sequence payload) =
      [eventLine payload, dataLine repr sequence payload] := by
    rw [lineEnd_pieces_append (unbroken_eventLine payload), lineEnd_pieces_of_unbroken (unbroken_dataLine repr _ _)]
  have hfirst : dataPrefix.isPrefixOf (eventLine payload) = false := rfl
  have hsecond : dataPrefix.isPrefixOf (dataLine repr sequence payload) = true := rfl
  rw [blockData, hpieces, List.find?_cons_of_neg (by rw [hfirst]; exact Bool.false_ne_true),
    List.find?_cons_of_pos hsecond]
  exact jsTrim_envelope repr sequence payload

theorem blockEvent_block (item : SseItem) : blockEvent (item.block repr) = item.envelope repr := by
  cases item with
  | keepAlive =>
    have hdata : blockData keepAliveComment = [] := by
      rw [blockData, lineEnd_pieces_of_unbroken unbroken_keepAliveComment]
      decide
    rw [SseItem.block, blockEvent, if_pos hdata, SseItem.envelope]
  | event sequence payload =>
    have hne : jsonDumps (chatEventEnvelope repr sequence payload) ≠ [] := by
      obtain ⟨c, x, hcons, -⟩ := exists_head_jsonDumps (chatEventEnvelope repr sequence payload)
      exact hcons ▸ List.cons_ne_nil c x
    rw [SseItem.block, blockEvent, blockData_event, if_neg hne, jsonParse_jsonDumps]
    rfl

end Encoded

/-- The client finds the envelopes that have been encoded, each once and in order, and any text is read as if it had
come at once. -/
theorem sse_stream_reads_back (repr : ℚ → NumberLiteral) (chunks : List Text) :
    (∀ items : List SseItem, chunks.flatten = items.flatMap (SseItem.encode repr) →
      readStream chunks = (items.filterMap (SseItem.envelope repr), [])) ∧
    readStream chunks = parseSseBuffer chunks.flatten := by
  refine ⟨fun items h ↦ ?_, readStream_eq chunks⟩
  rw [readStream_eq, h, parseSseBuffer, split_encode, List.filterMap_map]
  exact congrArg (fun events ↦ (events, [])) (List.filterMap_congr fun item _ ↦ blockEvent_block repr item)

/-- A short answer, after a comment. -/
def shortAnswer : List SseItem :=
  [.keepAlive, .event 1 (.token "Hi"), .keepAlive, .event 2 (.final "m1" "Hi" [] none)]

/-- Cut between the two newlines of the comment. -/
theorem sse_stream_reads_back_cut :
    readStream [(shortAnswer.flatMap (SseItem.encode fun _ ↦ intLiteral 0)).take 13,
        (shortAnswer.flatMap (SseItem.encode fun _ ↦ intLiteral 0)).drop 13] =
      ([chatEventEnvelope (fun _ ↦ intLiteral 0) 1 (.token "Hi"),
        chatEventEnvelope (fun _ ↦ intLiteral 0) 2 (.final "m1" "Hi" [] none)], []) :=
  (sse_stream_reads_back (fun _ ↦ intLiteral 0) _).1 shortAnswer (by
    rw [List.flatten_cons, List.flatten_cons, List.flatten_nil, List.append_nil, List.take_append_drop])

end GenericApp
