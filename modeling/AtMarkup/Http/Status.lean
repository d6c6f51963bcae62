/-!
# Status codes

The meaning of the status codes of HTTP as far as fetching needs it: which of them are successes,
which redirect, and which are worth another try.
-/

namespace AtMarkup.Http

/-- Whether a status tells of success. -/
def isSuccess (status : Int) : Bool :=
  200 ≤ status && status ≤ 299

/-- Whether a status sends the client on to another location. -/
def isRedirect (status : Int) : Bool :=
  [301, 302, 303, 307, 308].contains status

/-- Whether a status tells of a failure that may pass. -/
def isTransient (status : Int) : Bool :=
  [429, 500, 502, 503, 504].contains status

theorem isSuccess_iff {status : Int} : isSuccess status = true ↔ 200 ≤ status ∧ status ≤ 299 := by
  simp [isSuccess]

theorem isRedirect_iff {status : Int} : isRedirect status = true ↔
    status = 301 ∨ status = 302 ∨ status = 303 ∨ status = 307 ∨ status = 308 := by
  simp [isRedirect]

theorem isRedirect_eq_false {status : Int} (h : status < 301 ∨ 308 < status) :
    isRedirect status = false := by
  rw [← Bool.not_eq_true, isRedirect_iff]
  omega

theorem isTransient_iff {status : Int} : isTransient status = true ↔
    status = 429 ∨ status = 500 ∨ status = 502 ∨ status = 503 ∨ status = 504 := by
  simp [isTransient]

end AtMarkup.Http
