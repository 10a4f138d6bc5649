import Ssp.Fs.Chunks
import Ssp.Lib.Decimal

/-!
# The body of a reply

An `api/response` comes with the length of its body. When it is read at once, `parse` makes the
content from the lines of the body: empty lines are dropped, and every line gets an end. So the
content is the body only if it has that form already, and otherwise the message is not even
complete, because the lengths differ (`decoded_iff`). A body that is read later is added to the
content as it is.
-/

namespace Ssp

/-- An `api/response` of a content length and a body. -/
def apiResponse (n : ℕ) (body : Bytes) : Bytes :=
  "Content-Type: api/response".toList ++ '\n' :: (contentLength ++ decimal n ++ '\n' :: '\n' :: body)

/-- Lines that are not empty, at least one, each with its end. -/
def LineByLine (s : Bytes) : Prop :=
  s.head? ≠ some '\n' ∧ ¬['\n', '\n'] <:+: s ∧ s.getLast? = some '\n'

theorem lineByLine_iff {s : Bytes} : LineByLine s ↔ s ≠ [] ∧ terminate '\n' (lines s) = s := by
  have hlines : terminate '\n' (tokens (· == '\n') s) = s ↔ _ := terminate_tokens_eq_iff (by simp) s
  unfold lines LineByLine
  rw [hlines]
  cases s with
  | nil => simp
  | cons c s => simp [List.getLast?_cons]

/-- A line ends at its end. -/
theorem lines_append_cons (u v : Bytes) : lines (u ++ '\n' :: v) = lines u ++ lines v := tokens_append_cons rfl u v

theorem lines_cons (s : Bytes) : lines ('\n' :: s) = lines s := tokens_cons_of_sep rfl s

theorem lines_of_line {l : Bytes} (hne : l ≠ []) (h : '\n' ∉ l) : lines l = [l] := by
  refine tokens_of_forall hne fun c hc => beq_eq_false_iff_ne.2 ?_
  rintro rfl
  exact h hc

theorem lines_apiResponse (n : ℕ) (B : Bytes) :
    lines (apiResponse n B) = "Content-Type: api/response".toList :: (contentLength ++ decimal n) :: lines B := by
  have hlength : '\n' ∉ contentLength ++ decimal n := by
    intro hmem
    rcases List.mem_append.1 hmem with hmem | hmem
    · exact absurd hmem (by decide)
    · exact absurd (isDigit_of_mem_decimal hmem) (by decide)
  unfold apiResponse
  rw [lines_append_cons, lines_append_cons, lines_cons, lines_of_line (by decide) (by decide),
    lines_of_line (by simp [decimal_ne_nil]) hlength]
  rfl

/-- The header of a response, and what is left for `parse`. -/
theorem header_apiResponse (n : ℕ) (B : Bytes) :
    header (apiResponse n B) = some ("api".toList, "response".toList, (contentLength ++ decimal n) :: lines B) :=
  header_eq_some_iff.2 ⟨_, lines_apiResponse n B, by decide, by decide⟩

theorem body_apiResponse (n : ℕ) (B : Bytes) : body ((contentLength ++ decimal n) :: lines B) =
    if atoi (decimal n) = 0 then body (lines B) else some (atoi (decimal n), lines B) := by
  have hdrop : (contentLength ++ decimal n).drop contentLength.length = decimal n := List.drop_left
  rw [body, if_pos (List.isPrefixOf_iff_prefix.2 (List.prefix_append _ _)), show 16 = contentLength.length from rfl,
    hdrop]

namespace FsMessage

/-- What a response says that is read at once. -/
theorem says_apiResponse (n : ℕ) (B : Bytes) : (reset.append (apiResponse n B)).Says .api .response
    (parsed .api .response ((contentLength ++ decimal n) :: lines B)) :=
  blank_reset.append_of_some (header_apiResponse n B) rfl

/-- The message is complete, an `api/response`, and its content is the body. -/
structure Decoded (m : FsMessage) (body : Bytes) : Prop where
  bComplete : m.bComplete = true
  category : m.category = .api
  type : m.type = .response
  strContent : m.strContent = body

/-- A response is complete exactly if the lines that follow have the length that is said. -/
theorem complete_apiResponse {n : ℕ} {B : Bytes} (h : (reset.append (apiResponse n B)).bComplete = true) :
    ∃ k bs, body ((contentLength ++ decimal n) :: lines B) = some (k, bs) ∧ 0 < k ∧
      (terminate '\n' bs).length = k.toNat ∧ (reset.append (apiResponse n B)).strContent = terminate '\n' bs := by
  have hsaid := says_apiResponse n B
  have hc : (FsMsgCategory.api = .api ∧ FsMsgType.response = .response) ∨ FsMsgCategory.api = .text := .inl ⟨rfl, rfl⟩
  rw [hsaid.bComplete] at h
  obtain ⟨k, bs, hbody⟩ := body_of_complete hc h
  rw [parsed_content hc hbody] at h hsaid
  obtain hreq | ⟨hpos, hlength⟩ := of_decide_eq_true h
  · cases hreq
  · exact ⟨k, bs, hbody, hpos, hlength, hsaid.strContent⟩

/-- A response with the length of the lines that follow says these lines. -/
theorem decoded_of_lines {n : ℕ} {B : Bytes} (hpos : 0 < n) (hlt : n < 2 ^ 32)
    (hlength : (terminate '\n' (lines B)).length = n) :
    Decoded (reset.append (apiResponse n B)) (terminate '\n' (lines B)) := by
  have hread := toNat_atoi_decimal hlt
  have hn : atoi (decimal n) ≠ 0 := by
    intro hzero
    rw [hzero] at hread
    exact hpos.ne hread
  have hsaid := says_apiResponse n B
  rw [parsed_content (.inl ⟨rfl, rfl⟩) ((body_apiResponse n B).trans (if_neg hn))] at hsaid
  refine ⟨hsaid.bComplete.trans ?_, hsaid.category, hsaid.type, hsaid.strContent⟩
  exact decide_eq_true (.inr ⟨UInt32.pos_iff_ne_zero.2 hn, hlength.trans hread.symm⟩)

/-- **Bodies.** A response that is read at once with the length of its body is complete, with the
    body as its content, exactly if the body is lines without an empty one, the last one with its
    end, and its length has no more than 32 bits. -/
theorem decoded_iff (B : Bytes) :
    Decoded (reset.append (apiResponse B.length B)) B ↔ LineByLine B ∧ B.length < 2 ^ 32 := by
  rw [lineByLine_iff]
  constructor
  · intro h
    obtain ⟨k, bs, hbody, hpos, hlength, hcontent⟩ := complete_apiResponse h.bComplete
    obtain rfl : terminate '\n' bs = B := hcontent.symm.trans h.strContent
    have hlt : (terminate '\n' bs).length < 2 ^ 32 := hlength ▸ k.toNat_lt
    have hne : terminate '\n' bs ≠ [] := by
      intro hnil
      rw [hnil] at hlength
      exact absurd hpos (by rw [UInt32.lt_iff_toNat_lt, ← hlength]; simp)
    -- The length was read right, so the content are all lines of the body.
    have hn : atoi (decimal (terminate '\n' bs).length) ≠ 0 := by
      intro hzero
      have hread := toNat_atoi_decimal hlt
      rw [hzero] at hread
      exact hne (List.eq_nil_of_length_eq_zero hread.symm)
    rw [body_apiResponse, if_neg hn, Option.some_inj, Prod.mk.injEq] at hbody
    exact ⟨⟨hne, congrArg (terminate '\n') hbody.2⟩, hlt⟩
  · rintro ⟨⟨hne, hB⟩, hlt⟩
    have hdecoded := decoded_of_lines (List.length_pos_iff.2 hne) hlt (congrArg List.length hB)
    rwa [hB] at hdecoded

/-- A body without an end of line is not taken: the message stays incomplete. -/
theorem not_decoded_unended : ¬∀ B : Bytes, Decoded (reset.append (apiResponse B.length B)) B := by
  intro h
  have hcomplete := (h "+OK".toList).bComplete
  exact absurd hcomplete (by decide)

end FsMessage

end Ssp
