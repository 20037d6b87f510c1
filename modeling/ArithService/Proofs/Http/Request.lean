import Mathlib
import ArithService.Http.Request
import ArithService.Proofs.Auth.Token

/-!
# What callers can send

Every login with every password, and every expression, can be sent in a request, up to the size of
the largest body, together with every token that was issued.

## Main Definitions

* `credentialsText`, `expressionText` — the documents that callers send
-/

namespace ArithService

/-- The document with a login and a password. -/
def credentialsText (c : Credentials) : String :=
  jsonObject [("login", jsonString c.login), ("password", jsonString c.password)]

/-- The document with an expression. -/
def expressionText (expression : String) : String :=
  jsonObject [("expression", jsonString expression)]

namespace Request

variable {r : Request}

/-- A document is read from the body that announces it. -/
theorem document?_eq (htype : r.announcesJson = true) (hsize : r.body.length ≤ largestBody)
    {text : String} (hbody : r.body = textBytes text) {v : JsonValue}
    (htext : ReadsAs (octets text.toList) v) : r.document? = some v := by
  rw [document?, htype, Bool.true_and, if_pos (decide_eq_true hsize), hbody, htext.ofBytes?]

/-- Credentials are read as they were sent. -/
theorem credentials?_eq (htype : r.announcesJson = true)
    (hsize : r.body.length ≤ largestBody) {c : Credentials}
    (hbody : r.body = textBytes (credentialsText c)) : r.credentials? = some c := by
  have hdocument : r.document? = some (.object
      [(some "login", .string (some c.login)), (some "password", .string (some c.password))]) := by
    refine document?_eq htype hsize hbody (readsAs_jsonObject ?_)
    exact .cons ⟨rfl, readsAs_jsonString _⟩ (.cons ⟨rfl, readsAs_jsonString _⟩ .nil)
  rw [credentials?, hdocument]
  simp [JsonValue.fields?, JsonValue.membersNamed, JsonValue.text?]

/-- An expression is read as it was sent. -/
theorem expression?_eq (htype : r.announcesJson = true)
    (hsize : r.body.length ≤ largestBody) {expression : String}
    (hbody : r.body = textBytes (expressionText expression)) : r.expression? = some expression := by
  have hdocument : r.document? = some (.object
      [(some "expression", .string (some expression))]) := by
    refine document?_eq htype hsize hbody (readsAs_jsonObject ?_)
    exact .cons ⟨rfl, readsAs_jsonString _⟩ .nil
  rw [expression?, hdocument]
  simp [JsonValue.fields?, JsonValue.membersNamed, JsonValue.text?]

/-- An issued token has only characters that a header may have. -/
theorem isVisibleAscii_issue (t : TokenService) (now : Instant) (userId : Int) (login : String) :
    (t.issue now userId login).toList.all isVisibleAscii = true := by
  refine List.all_eq_true.2 fun c hc => ?_
  rcases TokenService.mem_of_mem_sign hc with hsymbol | rfl
  · have hrange := toNat_of_mem_urlSafe hsymbol
    simp only [isVisibleAscii, Bool.or_eq_true, Bool.and_eq_true, decide_eq_true_eq]
    omega
  · decide

/-- An issued token can be shown in the first header of a request. -/
theorem header?_bearer (t : TokenService) (now : Instant) (userId : Int)
    (login method path : String) (body : Bytes) (rest : List (String × String)) :
    (Request.mk method path (("Authorization", " Bearer\t " ++ t.issue now userId login ++ " ") ::
      rest) body).header? "authorization" =
        some (" Bearer\t " ++ t.issue now userId login ++ " ") := by
  have hname : "Authorization".toList.map Char.toLower = "authorization".toList := by decide
  have htext : (" Bearer\t " ++ t.issue now userId login ++ " ").toList.all isVisibleAscii =
      true := by
    rw [String.toList_append, String.toList_append, List.all_append, List.all_append,
      isVisibleAscii_issue]
    decide
  simp only [header?, List.find?_cons, hname, decide_true, htext, if_true]

end Request

end ArithService
