import Jcode.Provider.AnthropicSse
import Jcode.Provider.OpenAiSse
import Jcode.Provider.OpenRouterSse

/-!
# Bodies in chunks

Whether the events of a response depend on how the network splits its body.
-/

namespace Jcode

open Utf8

/-- The events of a body in chunks are those of its events in order, for every provider. -/
structure FollowsBody (chunks : List ByteArray) (body : String) : Prop where
  openRouter : ∀ parse events,
    (OpenRouter.handler parse).Emits sseSeparator readOrDrop (FrameHandler.initial .new)
      chunks events ↔ events = (OpenRouter.handler parse).decode sseSeparator .new body.toList
  openAi : ∀ env events,
    (OpenAi.handler env).Emits sseSeparator readOrDrop (FrameHandler.initial .new) chunks events ↔
      events = (OpenAi.handler env).decode sseSeparator .new body.toList
  anthropic : ∀ env, Anthropic.streamChunks env chunks = Anthropic.streamBody env body.toList

variable {chunks : List ByteArray} {body : String}

lemma map_readLossy (h : CutBetweenChars chunks) :
    chunks.map readLossy = chunks.map readOrDrop :=
  List.map_congr_left fun chunk hmem => readLossy_of_valid (h chunk hmem)

lemma flatMap_readLossy (h : CutBetweenChars chunks) (hbody : join chunks = body.toByteArray) :
    chunks.flatMap readLossy = body.toList := by
  rw [List.flatMap_def, map_readLossy h, ← List.flatMap_def]
  exact (flatMap_readOrDrop_iff hbody).mpr h

/-- No cut falls inside of a character, and only blocks without an event are left unread. -/
theorem followsBody (hbody : join chunks = body.toByteArray) (hcut : CutBetweenChars chunks)
    (hread : ∀ block ∈ Anthropic.unreadBlocks (chunks.map readOrDrop), Anthropic.isBlank block) :
    FollowsBody chunks body where
  openRouter parse events := by
    rw [FrameHandler.emits_initial_iff, (flatMap_readOrDrop_iff hbody).mpr hcut]
  openAi env events := by
    rw [FrameHandler.emits_initial_iff, (flatMap_readOrDrop_iff hbody).mpr hcut]
  anthropic env := by
    rw [← map_readLossy hcut] at hread
    rw [Anthropic.streamChunks_eq hread, flatMap_readLossy hcut hbody]

/-! ### The bodies of the retried streams -/

lemma OpenRouter.noSession_decode (parse : String → Option Json) (l : List Char) :
    NoSession ((OpenRouter.handler parse).decode sseSeparator .new l) := by
  intro sid hmem
  refine FrameHandler.forall_decode (P := fun event => event ≠ .sessionId sid) ?_ ?_ _ _ _ hmem rfl
  · rintro s frame event hevent rfl
    exact (OpenRouter.handleEvent_wellHandled s frame).noSession sid hevent
  · rintro s event hevent rfl
    exact OpenRouter.noSession_finishStream s sid hevent

/-- The body of a response whose stream does not fail. -/
def OpenRouter.responseBody (parse : String → Option Json) (body : String) : ResponseBody where
  events := (OpenRouter.handler parse).decode sseSeparator .new body.toList
  failure := none
  tokens := ⟨none, none, none, none⟩
  noSession := OpenRouter.noSession_decode parse body.toList

/-- A text that comes in two chunks, with the cut inside of a separator. -/
theorem followsBody_twoChunks :
    FollowsBody ["data: é\n".toByteArray, "\n: ping\n\n".toByteArray] "data: é\n\n: ping\n\n" := by
  refine followsBody (by decide +kernel) ?_ ?_
  · intro chunk hmem
    rcases List.mem_pair.mp hmem with rfl | rfl <;> exact String.isValidUTF8 _
  · have hfirst : sseSeparator.frames "data: é\n".toList = ([], "data: é\n".toList) :=
      Separator.frames_of_none (by decide)
    have hsecond : sseSeparator.frames "data: é\n\n: ping\n\n".toList =
        (["data: é".toList, ": ping".toList], []) := by
      have hcut : sseSeparator.cut "data: é\n\n: ping\n\n".toList =
          some ("data: é".toList, ": ping\n\n".toList) := by decide
      have hcut' : sseSeparator.cut ": ping\n\n".toList = some (": ping".toList, []) := by decide
      rw [Separator.frames_of_some hcut, Separator.frames_of_some hcut',
        Separator.frames_of_none (by decide)]
    have hcompleted : sseSeparator.completed []
        (["data: é\n".toByteArray, "\n: ping\n\n".toByteArray].map readOrDrop) =
        [[], ["data: é".toList, ": ping".toList]] := by
      simp only [List.map_cons, List.map_nil, readOrDrop_toByteArray, Separator.completed,
        List.nil_append, hfirst]
      rw [show "data: é\n".toList ++ "\n: ping\n\n".toList = "data: é\n\n: ping\n\n".toList from rfl,
        hsecond]
    rw [Anthropic.unreadBlocks, hcompleted]
    decide +kernel

/-- The cut falls inside of a character of a comment: both chunks are dropped. -/
theorem not_followsBody :
    join [⟨#[58, 32, 0xc3]⟩, ⟨#[0xa9, 10, 10] ++ "data: [DONE]\n\n".toByteArray.data⟩] =
        ": é\n\ndata: [DONE]\n\n".toByteArray ∧
      ¬ FollowsBody [⟨#[58, 32, 0xc3]⟩, ⟨#[0xa9, 10, 10] ++ "data: [DONE]\n\n".toByteArray.data⟩]
        ": é\n\ndata: [DONE]\n\n" := by
  refine ⟨by decide +kernel, fun h => ?_⟩
  have hdropped : [(⟨#[58, 32, 0xc3]⟩ : ByteArray),
      ⟨#[0xa9, 10, 10] ++ "data: [DONE]\n\n".toByteArray.data⟩].flatMap readOrDrop = [] := by
    decide +kernel
  have hcomment : OpenRouter.handleEvent (fun _ => none) .new [] ": é".toList =
      (none, [], .new) := by decide +kernel
  have hdone : OpenRouter.handleEvent (fun _ => none) .new [] "data: [DONE]".toList =
      (some (.messageEnd none), [], .new) := by decide +kernel
  have hnone := (h.openRouter (fun _ => none) []).mp (FrameHandler.emits_initial_iff.mpr (by
    rw [hdropped, FrameHandler.decode_of_none (by decide)]
    rfl))
  have hcut : sseSeparator.cut ": é\n\ndata: [DONE]\n\n".toList =
      some (": é".toList, "data: [DONE]\n\n".toList) := by decide
  have hcut' : sseSeparator.cut "data: [DONE]\n\n".toList = some ("data: [DONE]".toList, []) := by
    decide
  rw [FrameHandler.decode_of_some hcut] at hnone
  simp only [OpenRouter.handler, hcomment] at hnone
  rw [FrameHandler.decode_of_some hcut'] at hnone
  dsimp only at hnone
  rw [hdone] at hnone
  cases hnone

end Jcode
