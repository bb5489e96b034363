import FrigateZmqDetector.Protocol.Handlers
import FrigateZmqDetector.Tflite.Manager

/-!
# What decides between a query and a transfer

A message is classified by the keys of its header, but `handleModelRequest` looks at the number of
frames alone. `header_decides_iff` says when the two agree: two or more frames have to come with
`model_data`, and a single frame with `model_request`.
-/

namespace FrigateZmqDetector.Protocol

open Lib Lib.Eff Tflite

variable {json : SerdeJson} {σ : Type} {b : DetectorBackend σ} {msg : ZmqMessage} {s : σ}

def hasKey (json : SerdeJson) (key : String) (msg : ZmqMessage) : Bool :=
  (headerOf json msg).any fun header => (header.get key).isSome

theorem hasKey_cons {frame : Bytes} {header : Value} (h : json.fromSlice frame = .ok header)
    (rest : List Bytes) (key : String) :
    hasKey json key (frame :: rest) = (header.get key).isSome := by
  rw [hasKey, headerOf_cons h]
  rfl

/-- The message is treated as a model transfer: `cache_model` is called, or the answer says whether
the model was saved. -/
def TreatedAsTransfer (json : SerdeJson) (b : DetectorBackend σ) (msg : ZmqMessage) (s : σ) : Prop :=
  let result := (handleModelRequest json b.traced msg).run (s, [])
  (∃ ok, BackendCall.cacheModel ok ∈ result.2.2) ∨
    ∃ v, result.1 = .ok [.json v] ∧ (v.get "model_saved").isSome = true

/-- The message is answered as an availability query, and the backend is left as it is. -/
def AnsweredAsQuery (json : SerdeJson) (b : DetectorBackend σ) (msg : ZmqMessage) (s : σ) : Prop :=
  ∃ name, (handleModelRequest json b msg).run s =
    (.ok (modelAvailabilityReply name (b.isModelReady s name) (b.modelName s)), s)

/-- The header decides what the message does. -/
structure HeaderDecides (json : SerdeJson) (b : DetectorBackend σ) (msg : ZmqMessage) (s : σ) :
    Prop where
  /-- A transfer has `model_data`. -/
  transfer : TreatedAsTransfer json b msg s → hasKey json "model_data" msg = true
  /-- A header with `model_request` only is a query, whatever follows it. -/
  query : hasKey json "model_request" msg = true → hasKey json "model_data" msg = false →
    AnsweredAsQuery json b msg s
  /-- A header with `model_data` only, and nothing after it, is an error. -/
  missingData : hasKey json "model_data" msg = true → hasKey json "model_request" msg = false →
    msg.length < 2 → ((handleModelRequest json b msg).run s).1.isErr = true

theorem not_transfer_of_single {frame : Bytes} {header : Value}
    (h : json.fromSlice frame = .ok header) : ¬ TreatedAsTransfer json b [frame] s := by
  unfold TreatedAsTransfer
  simp only [handleModelRequest_run h]
  rintro (⟨ok, hok⟩ | ⟨v, hv, hsaved⟩)
  · cases hok
  · simp only [Outcome.ok.injEq, modelAvailabilityReply, List.cons.injEq, Frame.json.injEq,
      and_true] at hv
    rw [← hv, (get_modelAvailability _ _ _).2.2.2.1] at hsaved
    cases hsaved

theorem transfer_of_data {frame data : Bytes} {rest : List Bytes} {header : Value}
    (h : json.fromSlice frame = .ok header) :
    TreatedAsTransfer json b (frame :: data :: rest) s := by
  have hsaved : ∀ n sv l m c, ((modelLoaded n sv l m c).get "model_saved").isSome = true := by
    intro n sv l m c
    rw [(get_modelLoaded n sv l m c).2.2.2.1]
    rfl
  unfold TreatedAsTransfer
  simp only [handleModelRequest_run h]
  split_ifs with hready hname
  · exact Or.inr ⟨_, rfl, hsaved ..⟩
  · exact Or.inr ⟨_, rfl, hsaved ..⟩
  · refine Or.inl ⟨((b.cacheModel data (some (requestedName header))).run s).1.isOk, ?_⟩
    simp only [DetectorBackend.traced, run_record, List.nil_append]
    rcases (b.cacheModel data (some (requestedName header))).run s with ⟨_ | _ | _, _⟩ <;>
      exact List.mem_singleton.mpr rfl

/-- **The header decides exactly when the number of frames agrees with it.** -/
theorem header_decides_iff (json : SerdeJson) (b : DetectorBackend σ) (msg : ZmqMessage) (s : σ)
    (h : classifyMessage json msg = true) :
    HeaderDecides json b msg s ↔
      (2 ≤ msg.length → hasKey json "model_data" msg = true) ∧
        (msg.length < 2 → hasKey json "model_request" msg = true) := by
  obtain ⟨frame, rest, header, rfl, hp, hkeys⟩ := exists_header h
  rw [← hasKey_cons hp rest, ← hasKey_cons hp rest] at hkeys
  cases rest with
  | nil =>
    constructor
    · intro hd
      refine ⟨fun hlen => absurd hlen (by simp), fun _ => ?_⟩
      by_contra hreq
      have hdata := hkeys.resolve_left hreq
      have herr := hd.missingData hdata (Bool.eq_false_iff.mpr hreq) (by simp)
      rw [handleModelRequest_run hp] at herr
      cases herr
    · rintro ⟨-, hreq⟩
      refine ⟨fun ht => absurd ht (not_transfer_of_single hp), fun _ _ => ?_, fun _ hno => ?_⟩
      · exact ⟨requestedName header, handleModelRequest_run hp⟩
      · rw [hreq (by simp)] at hno
        cases hno
  | cons data rest =>
    constructor
    · intro hd
      exact ⟨fun _ => hd.transfer (transfer_of_data hp), fun hlen => absurd hlen (by simp)⟩
    · rintro ⟨hdata, -⟩
      have hdata := hdata (by simp)
      refine ⟨fun _ => hdata, fun _ hno => ?_, fun _ _ hlen => absurd hlen (by simp)⟩
      rw [hdata] at hno
      cases hno

def queryHeader : Bytes := ascii "\x7b\"model_request\":true\x7d"

def queryJson : SerdeJson := .ofTable [(queryHeader, .ofMembers [("model_request", .bool true)])]

/-- A query with three bytes after it loads them as the model. -/
theorem query_with_data_loads :
    ¬ HeaderDecides queryJson (tfliteBackend smallTflite) [queryHeader, [1, 2, 3]] smallState := by
  intro h
  have hdata := h.transfer (Or.inl ⟨true, by decide⟩)
  revert hdata
  decide

/-- The same query alone is answered as one. -/
theorem query_alone_decides :
    HeaderDecides queryJson (tfliteBackend smallTflite) [queryHeader] smallState :=
  (header_decides_iff queryJson (tfliteBackend smallTflite) [queryHeader] smallState
    (by decide)).mpr ⟨by decide, by decide⟩

end FrigateZmqDetector.Protocol
