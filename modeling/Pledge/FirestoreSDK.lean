import Pledge.EventLoop.Raising
import Pledge.FirestoreManager

/-!
# The Firestore SDK

What the SDK does between the app and the servers: it refuses to build a query for what cannot be
the id of a document, and without a connection it answers a query from what the device has kept.
-/

namespace Pledge

/-! ## Ids of documents -/

/-- What `whereField(FieldPath.documentID(), in:)` takes for an id. -/
def isDocumentID (id : String) : Bool := !id.toList.isEmpty && !id.toList.contains '/'

/-- What `document(_:)` takes for a path below a collection: an odd number of segments, and no
empty one between two others. -/
def isDocumentPath (path : String) : Bool :=
  !decide (['/', '/'] <:+: path.toList) &&
    ((path.toList.splitOn '/').filter fun segment => !segment.isEmpty).length % 2 == 1

/-- Building the request throws an exception. A uid is issued by Firebase and always is an id. -/
def Request.raises : Request → Bool
  | .getOrganisationsIn ids => ids.isEmpty || decide (10 < ids.length) || ids.any fun id => !isDocumentID id
  | .setDonate _ id _ => !isDocumentPath id
  | .deleteDonate _ id => !isDocumentPath id
  | _ => false

/-- A program of the app as the SDK lets it run. -/
abbrev running (p : Prog) : Prog := p.upTo Request.raises

example : isDocumentID "shelter" = true ∧ isDocumentID "" = false ∧ isDocumentID "a/b" = false := by
  decide

/-! ## Where answers come from -/

variable {source : Request → Source} {kept : Server} {w w' : World} {r : Request} {a : r.Response}

end Pledge
