import Turnstile.Digest.Sha256
import Turnstile.Key

/-!
# Request keys

What makes two requests the same one: who sends it, with which method, to which resource, and with
which body.  A query or a fragment, slashes at the end of the path and the case of the method make
no difference.  Of the body only a fingerprint counts; an empty body has none.
-/

namespace Turnstile

open Turnstile.Text

/-- A request as the idempotency gate sees it. -/
structure RequestKey where
  actor : String
  method : String
  path : String
  fingerprint : Option String
  deriving DecidableEq, Repr

namespace RequestKey

/-- The character begins a query or a fragment. -/
def endsPath (c : Char) : Bool := c = '?' || c = '#'

/-- The resource that a path names: what stands before a query or fragment, without slashes at its
end; the root if nothing is left. -/
def resource (path : List Char) : List Char :=
  match ((path.takeWhile (!endsPath ·)).reverse.dropWhile (· = '/')).reverse with
  | [] => ['/']
  | cs => cs

/-- A method in upper case. -/
def upper (method : List Char) : List Char := method.map Char.toUpper

/-- The key of a request without a body. -/
def make (actor method path : String) : RequestKey where
  actor := actor
  method := String.ofList (upper method.toList)
  path := String.ofList (resource path.toList)
  fingerprint := none

/-- The key with a fingerprint. -/
def withFingerprint (k : RequestKey) (fingerprint : String) : RequestKey :=
  { k with fingerprint := some fingerprint }

/-- The key with the fingerprint of a body; an empty body changes nothing. -/
def withBody (k : RequestKey) (body : List UInt8) : RequestKey :=
  if body.isEmpty then k else k.withFingerprint (Digest.Sha256.hexDigest body)

/-- The name of the lock on a request. -/
def name (k : RequestKey) : String :=
  k.actor ++ ":" ++ k.method ++ ":" ++ k.path ++ k.fingerprint.elim "" ("#" ++ ·)

/-- The key of the lock on a request. -/
def storeKey (k : RequestKey) : String := Key.namespaced Key.requestLock k.name

/-! ## Resources -/

theorem resource_ne_nil (path : List Char) : resource path ≠ [] := by
  unfold resource
  split
  · simp
  · next h => exact h

theorem endsPath_of_mem_resource {path : List Char} {c : Char} (h : c ∈ resource path) :
    endsPath c = false := by
  unfold resource at h
  split at h
  · simp only [List.mem_singleton] at h
    subst h
    decide
  · have hmem : c ∈ path.takeWhile (!endsPath ·) :=
      List.mem_reverse.1 ((List.dropWhile_sublist _).mem (List.mem_reverse.1 h))
    have := List.all_takeWhile (p := (!endsPath ·)) (l := path)
    simpa using (List.all_eq_true.1 this) c hmem

end RequestKey

end Turnstile
