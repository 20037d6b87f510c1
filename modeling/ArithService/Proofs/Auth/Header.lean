import Mathlib
import ArithService.Auth.Header
import ArithService.Proofs.Text.Whitespace

/-!
# Tokens are found in headers

## Main Definitions

* `HeaderCarries` — the forms in which a header value may carry a token

## Design Notes

The two directions differ in what they ask of the token. Whatever is found in a header is carried
by it in one of the two forms. What is carried is found if it cannot be mistaken for the scheme
and has no white space, which holds of everything that has the parts of a token.
-/

namespace ArithService

/-- A header value that carries a token: bare or after the scheme and white space, with white
space allowed around it. -/
inductive HeaderCarries (header token : String) : Prop where
  | bare {before after : List Char} (hbefore : IsWhite before) (hafter : IsWhite after)
      (hheader : header.toList = before ++ token.toList ++ after)
  | bearer {before gap after : List Char} (hbefore : IsWhite before) (hgap : IsWhite gap)
      (hsome : gap ≠ []) (hafter : IsWhite after)
      (hheader : header.toList = before ++ (bearerScheme ++ gap ++ token.toList) ++ after)

/-- The scheme is taken off where white space follows it. -/
theorem afterBearer?_append {c : Char} (hc : isWhiteSpace c = true) (rest : List Char) :
    afterBearer? (bearerScheme ++ c :: rest) = some (c :: rest) := by
  rw [afterBearer?, List.take_left, if_pos rfl, List.drop_left]
  exact if_pos hc

/-- What follows the scheme begins with white space. -/
theorem eq_append_of_afterBearer? {value rest : List Char} (h : afterBearer? value = some rest) :
    value = bearerScheme ++ rest ∧ ∀ c ∈ rest.head?, isWhiteSpace c = true := by
  unfold afterBearer? at h
  split_ifs at h with hscheme
  have hsplit : value = bearerScheme ++ value.drop bearerScheme.length := by
    conv_lhs => rw [← List.take_append_drop bearerScheme.length value, hscheme]
  cases hrest : value.drop bearerScheme.length with
  | nil =>
    rw [hrest] at h hsplit
    obtain rfl := Option.some.inj h
    exact ⟨hsplit, by simp⟩
  | cons c cs =>
    rw [hrest] at h hsplit
    simp only at h
    split_ifs at h with hwhite
    obtain rfl := Option.some.inj h
    exact ⟨hsplit, by simpa using hwhite⟩

/-- **What is found in a header is carried by it.** -/
theorem headerCarries_of_headerToken {header token : String} (h : headerToken header = some token) :
    HeaderCarries header token := by
  obtain ⟨before, after, hbefore, hafter, hheader⟩ := exists_trimChars_eq header.toList
  unfold headerToken at h
  cases hscheme : afterBearer? (trimChars header.toList) with
  | none =>
    simp only [hscheme] at h
    split_ifs at h
    obtain rfl := Option.some.inj h
    exact .bare hbefore hafter (by rwa [String.toList_ofList])
  | some rest =>
    simp only [hscheme] at h
    split_ifs at h with hnone
    obtain rfl := Option.some.inj h
    obtain ⟨hvalue, hfirst⟩ := eq_append_of_afterBearer? hscheme
    obtain ⟨behind, hbehind, htrim⟩ := exists_trimLeft_eq rest
    refine .bearer hbefore (isWhite_takeWhile rest) ?_ (hbehind.append hafter) ?_
    · -- What follows the scheme is not empty, and so begins with white space.
      cases rest with
      | nil => exact absurd rfl hnone
      | cons c rest => simp [hfirst c rfl]
    · have hrest : rest = rest.takeWhile isWhiteSpace ++ (trimChars rest ++ behind) := by
        rw [← htrim]
        exact List.takeWhile_append_dropWhile.symm
      rw [hheader, hvalue, String.toList_ofList]
      conv_lhs => rw [hrest]
      simp only [List.append_assoc]

/-- **What a header carries is found in it**, where it has a dot and no white space. -/
theorem headerToken_of_headerCarries {header token : String} (h : HeaderCarries header token)
    (hwhite : ∀ c ∈ token.toList, isWhiteSpace c = false) (hdot : '.' ∈ token.toList) :
    headerToken header = some token := by
  have hsome : token.toList ≠ [] := List.ne_nil_of_mem hdot
  have hfirst : ∀ c ∈ token.toList.head?, isWhiteSpace c = false :=
    fun c hc => hwhite c (List.mem_of_head? hc)
  have hlast : ∀ c ∈ token.toList.getLast?, isWhiteSpace c = false :=
    fun c hc => hwhite c (List.mem_of_getLast? hc)
  cases h with
  | bare hbefore hafter hheader =>
    have htrim : trimChars header.toList = token.toList := by
      rw [hheader, trimChars_append hbefore hafter hfirst hlast]
    have hscheme : afterBearer? token.toList = none := by
      cases hafter : afterBearer? token.toList with
      | none => rfl
      | some rest =>
        obtain ⟨hvalue, hrest⟩ := eq_append_of_afterBearer? hafter
        cases rest with
        | nil =>
          rw [hvalue] at hdot
          exact absurd hdot (by decide)
        | cons c rest =>
          have hnot : isWhiteSpace c = false := hwhite c (by simp [hvalue])
          simp [hrest c rfl] at hnot
    simp only [headerToken, htrim, hscheme, if_neg hsome, String.ofList_toList]
  | @bearer before gap after hbefore hgap hgapSome hafter hheader =>
    have htrim : trimChars header.toList = bearerScheme ++ gap ++ token.toList := by
      rw [hheader, trimChars_append hbefore hafter]
      · simp [bearerScheme, isWhiteSpace]
      · rwa [List.getLast?_append_of_ne_nil _ hsome]
    cases gap with
    | nil => exact absurd rfl hgapSome
    | cons c gap =>
      have hscheme : afterBearer? (bearerScheme ++ (c :: gap) ++ token.toList) =
          some (c :: gap ++ token.toList) := by
        rw [List.append_assoc]
        exact afterBearer?_append (hgap c (by simp)) _
      have htoken : trimChars (c :: gap ++ token.toList) = token.toList := by
        rw [← List.append_nil (c :: gap ++ token.toList),
          trimChars_append hgap isWhite_nil hfirst hlast]
      simp only [headerToken, htrim, hscheme, htoken, if_neg hsome, String.ofList_toList]

end ArithService
