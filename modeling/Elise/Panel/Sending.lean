/-
Elise/Panel/Sending.lean

What `send` of the HTTP client makes of a request: the panel clients keep the
default of the crate `reqwest`, which follows redirects, ten at most.

A response with status 301, 302 or 303 and a `Location` is followed by a GET
without a body, one with status 307 or 308 by the same request at the other
URL.  The caller sees the answer to the last request only, so one call of
`send` is several requests on the wire, and a success may be the answer to a
request that does not carry what was to be sent.

`Exchange` is a client call as the clients are written, with one answer for
each `send`; `Sending` is the same call by its requests on the wire.
-/
import Elise.Panel.Client

namespace Elise

/-- What becomes of a request on the wire: a transport error, or a response
with the URL that its `Location` names, if it names one. -/
inductive Hop where
  | error
  | response (status : StatusCode) (location : Option String) (body : Option Json)

namespace Hop

/-- The request was answered with a success status. -/
def isSuccess : Hop → Bool
  | error => false
  | response status _ _ => status.isSuccess

/-- The answer that the caller sees, where nothing is followed. -/
def answer : Hop → Answer
  | error => .error
  | response status _ body => .response status body

@[simp] theorem isSuccess_answer (a : Hop) : a.answer.isSuccess = a.isSuccess := by
  cases a <;> rfl

end Hop

/-- The request is sent again without its method and body. -/
def StatusCode.dropsBody (s : StatusCode) : Bool := s.code == 301 || s.code == 302 || s.code == 303

/-- The request is sent again as it is. -/
def StatusCode.keepsBody (s : StatusCode) : Bool := s.code == 307 || s.code == 308

/-- The request that takes the place of this one. -/
def Request.redirected (req : Request) : Hop → Option Request
  | .response status (some url) _ =>
      if status.dropsBody then some ⟨.get, url, [], .empty⟩
      else if status.keepsBody then some ⟨req.method, url, [], req.payload⟩
      else none
  | _ => none

/-- A client call by its requests on the wire. -/
inductive Sending (α : Type) where
  | done (a : α)
  /-- `req` is out, for a `send` that follows `left` more redirects. -/
  | request (req : Request) (left : Nat) (k : Answer → Exchange α)

/-- The default of `reqwest::redirect::Policy`. -/
def maxRedirects : Nat := 10

def Exchange.begin {α : Type} : Exchange α → Sending α
  | done a => .done a
  | send req k => .request req maxRedirects k

/-- A response is followed, or it is the answer; one redirect too many is an
error. -/
def Sending.next {α : Type} (req : Request) (left : Nat) (k : Answer → Exchange α) (a : Hop) :
    Sending α :=
  match req.redirected a, left with
  | some req', left + 1 => .request req' left k
  | some _, 0 => (k .error).begin
  | none, _ => (k a.answer).begin

/-! ### What follows a response -/

section

variable {α : Type} {req req' : Request} {left : Nat} {k : Answer → Exchange α} {a : Hop}

theorem Sending.next_of_none (h : req.redirected a = none) :
    Sending.next req left k a = (k a.answer).begin := by
  simp only [next, h]

theorem Sending.next_succ (h : req.redirected a = some req') :
    Sending.next req (left + 1) k a = .request req' left k := by
  simp only [next, h]

theorem Sending.next_zero (h : req.redirected a = some req') :
    Sending.next req 0 k a = (k .error).begin := by
  simp only [next, h]

end

theorem StatusCode.isSuccess_eq_false_of_dropsBody {s : StatusCode} (h : s.dropsBody = true) :
    s.isSuccess = false := by
  simp only [dropsBody, Bool.or_eq_true, beq_iff_eq] at h
  simp only [isSuccess, Bool.and_eq_false_iff, decide_eq_false_iff_not]
  omega

theorem StatusCode.isSuccess_eq_false_of_keepsBody {s : StatusCode} (h : s.keepsBody = true) :
    s.isSuccess = false := by
  simp only [keepsBody, Bool.or_eq_true, beq_iff_eq] at h
  simp only [isSuccess, Bool.and_eq_false_iff, decide_eq_false_iff_not]
  omega

/-- What is followed is no success, and the next request carries the same or
nothing. -/
theorem Request.redirected_eq_some {req req' : Request} {a : Hop} (h : req.redirected a = some req') :
    a.isSuccess = false ∧ (req'.payload = req.payload ∨ req'.payload = .empty) := by
  cases a with
  | error => cases h
  | response status location body =>
      cases location with
      | none => cases h
      | some url =>
          simp only [redirected] at h
          split_ifs at h with hdrop hkeep
          · obtain rfl := Option.some.inj h
            exact ⟨StatusCode.isSuccess_eq_false_of_dropsBody hdrop, .inr rfl⟩
          · obtain rfl := Option.some.inj h
            exact ⟨StatusCode.isSuccess_eq_false_of_keepsBody hkeep, .inl rfl⟩

end Elise
