/-
  CustomDbms.Network.Protocol
  ───────────────────────────
  **ENVELOPES ON THE WIRE** (`src/network/protocol.{hpp,cpp}`; `ReadLine` of
  the server, the client and the forwarding entrypoint).

  A message is one line of escaped fields.  `EscapeField`, `UnescapeField` and
  `SplitByTab` are those of the files on disk, and so is what they lose: an
  escaped newline is still a newline, and the reader stops there.
-/
import CustomDbms.Parser.Lexer

namespace CustomDbms.Network

open CustomDbms.Common CustomDbms.Parser

/-! ## §1. Envelopes. -/

/-- `RequestEnvelope`. -/
structure RequestEnvelope where
  clientId : Str
  jwtToken : Str
  payload : Str
  deriving DecidableEq

/-- `ResponseEnvelope`. -/
structure ResponseEnvelope where
  statusCode : Int32 := 200
  payload : Str := []
  deriving DecidableEq

/-- `SerializeRequest`. -/
def serializeRequest (request : RequestEnvelope) : Str :=
  escape request.clientId ++ str "\t" ++ escape request.jwtToken ++ str "\t"
    ++ escape request.payload ++ str "\n"

/-- `SerializeResponse`. -/
def serializeResponse (response : ResponseEnvelope) : Str :=
  intToString response.statusCode.toInt ++ str "\t" ++ escape response.payload ++ str "\n"

/-- `DeserializeRequest`; `none` where it returns false. -/
def deserializeRequest (wire : Str) : Option RequestEnvelope :=
  match splitByTab wire with
  | [clientId, jwtToken, payload] =>
      some ⟨unescape clientId, unescape jwtToken, unescape payload⟩
  | _ => none

/-- `DeserializeResponse`; `none` where it returns false. -/
def deserializeResponse (wire : Str) : Option ResponseEnvelope :=
  match splitByTab wire with
  | [code, payload] => (stoi code).map fun statusCode => ⟨statusCode, unescape payload⟩
  | _ => none

/-- `ReadLine`: the bytes of the stream up to the first newline; `none` where
the peer closes before one comes. -/
def readLine : Str → Option Str
  | [] => none
  | c :: rest => if c = newline then some [] else (readLine rest).map (c :: ·)

/-- A request, sent and read by the peer. -/
def transmitRequest (request : RequestEnvelope) : Option RequestEnvelope :=
  (readLine (serializeRequest request)).bind deserializeRequest

/-- A response, sent and read by the peer. -/
def transmitResponse (response : ResponseEnvelope) : Option ResponseEnvelope :=
  (readLine (serializeResponse response)).bind deserializeResponse

/-! ## §2. What arrives. -/

theorem readLine_append {l : Str} (h : newline ∉ l) (rest : Str) :
    readLine (l ++ newline :: rest) = some l := by
  induction l with
  | nil => simp [readLine]
  | cons c l ih =>
      have hc : c ≠ newline := fun hc => h (by simp [hc])
      rw [List.cons_append, readLine, if_neg hc, ih fun hl => h (by simp [hl])]
      rfl

theorem newline_not_mem_of_readLine {s l : Str} (h : readLine s = some l) : newline ∉ l := by
  induction s generalizing l with
  | nil => cases h
  | cons c s ih =>
      rw [readLine] at h
      split at h
      · cases h
        simp
      · rename_i hc
        obtain ⟨m, hm, rfl⟩ := Option.map_eq_some_iff.mp h
        simp [ih hm, Ne.symm hc]

/-- A line of parts arrives as its parts. -/
theorem readLine_parts {p : Str} {ps : List Str} (h : ∀ q ∈ p :: ps, Part q) :
    readLine ([tab].intercalate (p :: ps) ++ [newline])
      = some ([tab].intercalate (p :: ps)) := by
  exact readLine_append (line_of_parts h).1 []

/-- The fields of a request that arrived come from one line. -/
theorem newline_not_mem_of_deserializeRequest {wire : Str} {request : RequestEnvelope}
    (hn : newline ∉ wire) (h : deserializeRequest wire = some request) :
    newline ∉ request.clientId ∧ newline ∉ request.jwtToken ∧ newline ∉ request.payload := by
  have hpart : ∀ p ∈ splitByTab wire, newline ∉ unescape p := by
    intro p hp hm
    exact newline_not_mem_of_mem_splitByTab hn hp (mem_of_mem_unescapeFrom hm)
  rw [deserializeRequest] at h
  split at h
  · rename_i hparts
    cases h
    rw [hparts] at hpart
    exact ⟨hpart _ (by simp), hpart _ (by simp), hpart _ (by simp)⟩
  · cases h

theorem newline_not_mem_of_deserializeResponse {wire : Str} {response : ResponseEnvelope}
    (hn : newline ∉ wire) (h : deserializeResponse wire = some response) :
    newline ∉ response.payload := by
  rw [deserializeResponse] at h
  split at h
  · rename_i payload hparts
    obtain ⟨code, _, rfl⟩ := Option.map_eq_some_iff.mp h
    intro hm
    exact newline_not_mem_of_mem_splitByTab hn (hparts ▸ by simp) (mem_of_mem_unescapeFrom hm)
  · cases h

/-! ## §3. The round trip. -/

theorem transmitRequest_eq {request : RequestEnvelope} (hc : newline ∉ request.clientId)
    (ht : newline ∉ request.jwtToken) (hp : newline ∉ request.payload) :
    transmitRequest request = some request := by
  have hparts : ∀ q ∈ [escape request.clientId, escape request.jwtToken,
      escape request.payload], Part q := by
    simpa using ⟨part_escape hc, part_escape ht, part_escape hp⟩
  have hwire : serializeRequest request
      = [tab].intercalate [escape request.clientId, escape request.jwtToken,
          escape request.payload] ++ [newline] := by
    simp [serializeRequest, List.intercalate, str, tab, newline]
  rw [transmitRequest, hwire, readLine_parts hparts]
  show deserializeRequest _ = some request
  rw [deserializeRequest, (line_of_parts hparts).2]
  simp

theorem transmitResponse_eq {response : ResponseEnvelope} (hp : newline ∉ response.payload) :
    transmitResponse response = some response := by
  have hparts : ∀ q ∈ [intToString response.statusCode.toInt, escape response.payload],
      Part q := by
    simpa using ⟨part_intToString _, part_escape hp⟩
  have hwire : serializeResponse response
      = [tab].intercalate [intToString response.statusCode.toInt, escape response.payload]
          ++ [newline] := by
    simp [serializeResponse, List.intercalate, str, tab, newline]
  rw [transmitResponse, hwire, readLine_parts hparts]
  show deserializeResponse _ = some response
  rw [deserializeResponse, (line_of_parts hparts).2]
  simp [stoi_intToString]

/-- **An envelope arrives as it was sent exactly when no field of it holds a
newline**, for requests and for responses. -/
theorem transmit_iff (request : RequestEnvelope) (response : ResponseEnvelope) :
    (transmitRequest request = some request ↔
      newline ∉ request.clientId ∧ newline ∉ request.jwtToken ∧ newline ∉ request.payload) ∧
    (transmitResponse response = some response ↔ newline ∉ response.payload) := by
  constructor
  · constructor
    · intro h
      obtain ⟨line, hline, hd⟩ := Option.bind_eq_some_iff.mp h
      exact newline_not_mem_of_deserializeRequest (newline_not_mem_of_readLine hline) hd
    · rintro ⟨hc, ht, hp⟩
      exact transmitRequest_eq hc ht hp
  · constructor
    · intro h
      obtain ⟨line, hline, hd⟩ := Option.bind_eq_some_iff.mp h
      exact newline_not_mem_of_deserializeResponse (newline_not_mem_of_readLine hline) hd
    · exact transmitResponse_eq

/-- A DELETE on two lines arrives without its WHERE, and a dump of two lines
without its second. -/
theorem newline_truncates_message :
    transmitRequest ⟨str "cli", [], str "DELETE FROM d.t\nWHERE k = 1;"⟩
        = some ⟨str "cli", [], str "DELETE FROM d.t"⟩ ∧
      transmitRequest ⟨str "cli", [], str "DELETE FROM d.t\nWHERE k = 1;"⟩
        ≠ some ⟨str "cli", [], str "DELETE FROM d.t\nWHERE k = 1;"⟩ ∧
      transmitResponse ⟨200, str "ok\nrows=2"⟩ ≠ some ⟨200, str "ok\nrows=2"⟩ := by
  decide +kernel

end CustomDbms.Network
