import Switchboard.Proofs.Text.Preview
import Switchboard.Proofs.Text.Utf8
import Switchboard.Worker.Endpoint

/-!
What is kept of a refusal.

A worker that refuses a request may say why in the body of its answer.  The error keeps that text, or of
a long one the longest beginning that ends with a character and takes at most 512 bytes.
-/

namespace Switchboard

open Text Text.Utf8

variable {reply : Reply} {status : Nat} {kept : String}

namespace Reply

/-- The errors that name a status come of refusals, and hold a preview of what was said. -/
theorem outcome_eq_status_iff :
    reply.outcome = .error (.status status kept) ↔
      ∃ body, reply = .answered status body ∧ ¬ (200 ≤ status ∧ status ≤ 299) ∧
        IsPreview previewLimit (String.ofList (decodeLossy body)) kept := by
  constructor
  · intro failed
    cases reply with
    | broken reason => cases failed
    | silent => cases failed
    | answered code body =>
        rw [outcome] at failed
        split at failed
        next => cases failed
        next refused =>
          cases failed
          refine ⟨body, rfl, by simpa using refused, isPreview_iff.mpr ?_⟩
          rw [String.toList_ofList, String.toList_ofList, preview_eq_takeBytes]
  · rintro ⟨body, rfl, refused, longest⟩
    rw [isPreview_iff, String.toList_ofList, ← preview_eq_takeBytes] at longest
    simp only [outcome, ← longest, String.ofList_toList]
    exact if_neg (by simpa using refused)

end Reply

namespace Endpoint

/-- Up to 512 bytes the text of a refusal is kept whole.  Of a longer one at most three of these bytes
are given up, and the search for the cut ends at one place, where the preview does. -/
theorem refusal_is_previewed {endpoint : Endpoint} {link : PostRequest → Reply}
    {target payload : String} {user : UserId} {trace : Option TraceId} {request : PostRequest}
    {body : List UInt8} {text : String}
    (sent : endpoint.request target payload user trace = .ok request)
    (answered : link request = .answered status body)
    (refused : ¬ (200 ≤ status ∧ status ≤ 299))
    (read : decodeLossy body = text.toList) :
    ∃ kept : String,
      post link (endpoint.request target payload user trace) =
        (.error (.status status kept), some request) ∧
      IsPreview 512 text kept ∧
      (text.utf8ByteSize ≤ 512 → kept = text) ∧
      (512 < text.utf8ByteSize → 509 ≤ kept.utf8ByteSize ∧ kept.utf8ByteSize ≤ 512) ∧
      ∀ cut, GoesBack text 512 cut ↔ cut = kept.utf8ByteSize := by
  obtain ⟨kept, longest⟩ := exists_isPreview 512 text
  have outcome : (link request).outcome = .error (.status status kept) := by
    refine Reply.outcome_eq_status_iff.mpr ⟨body, answered, refused, ?_⟩
    rwa [read, String.ofList_toList]
  refine ⟨kept, by rw [sent, post, outcome], longest, longest.eq_of_le, fun long => ?_, fun cut => ?_⟩
  · have short := longest.lt_add_four long
    exact ⟨by omega, longest.fits⟩
  · exact longest.goesBack_iff

/-- The last of these characters takes the bytes from 510 to 513. -/
private def complaint : String := String.ofList ('a' :: List.replicate 128 '😀')

private theorem toList_complaint : complaint.toList = 'a' :: List.replicate 128 '😀' :=
  String.toList_ofList

private def complaining : PostRequest → Reply := fun _ => .answered 503 (bytes complaint)

theorem split_character_is_left_out :
    ∃ sent, (create " http://worker/ " none).request "/internal/executions" "{}" "user" none =
        .ok sent ∧ sent.url = "http://worker/internal/executions" ∧
      complaint.utf8ByteSize = 513 ∧ GoesBack complaint 512 509 ∧
      post complaining
          ((create " http://worker/ " none).request "/internal/executions" "{}" "user" none) =
        (.error (.status 503 (String.ofList ('a' :: List.replicate 127 '😀'))), some sent) := by
  obtain ⟨sent, ready, url⟩ : ∃ sent,
      (create " http://worker/ " none).request "/internal/executions" "{}" "user" none = .ok sent ∧
        sent.url = "http://worker/internal/executions" := ⟨_, rfl, by decide⟩
  have answered : complaining sent = .answered 503 (bytes complaint) := rfl
  obtain ⟨kept, posted, longest, -, -, found⟩ :=
    refusal_is_previewed ready answered (by decide) (decodeLossy_bytes complaint)
  have whole : byteCount ('a' :: List.replicate 128 '😀') = 513 := by decide +kernel
  have part : byteCount ('a' :: List.replicate 127 '😀') = 509 := by decide +kernel
  have within : takeBytes 512 ('a' :: List.replicate 128 '😀') = 'a' :: List.replicate 127 '😀' := by
    decide +kernel
  have beginning : kept = String.ofList ('a' :: List.replicate 127 '😀') := by
    rw [isPreview_iff, toList_complaint, within] at longest
    rw [← longest, String.ofList_toList]
  have size : kept.utf8ByteSize = 509 := by rw [beginning, utf8ByteSize_ofList, part]
  refine ⟨sent, ready, url, ?_, (found 509).mpr size.symm, by rw [posted, beginning]⟩
  rw [utf8ByteSize_eq, toList_complaint, whole]

end Endpoint

end Switchboard
