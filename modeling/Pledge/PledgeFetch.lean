import Pledge.ChunkedFetch
import Pledge.Loading

/-!
# The pledges of the signed-in user

`fetchDonates` joins two queries, and the second is split into chunks. When what it reports is
all that is pledged.
-/

namespace Pledge

open EventLoop

/-- The completion of `MyImpactsViewController.loadData`. -/
def showDonates : Option (List DonateItem) → Prog
  | none => .emit .networkErrorAlert .stop
  | some lends => .emit (.showActiveDonates lends) .stop

/-- The pledges of the query whose organisation exists, each with that organisation. -/
def World.donates (w : World) (donateRefs : List DonateItemRef) : List DonateItem :=
  donateRefs.filterMap fun ref =>
    (w.organisation? ref.organisationId).map fun organisation =>
      { id := ref.id, amount := ref.amount, organisation }

section Join

variable {w w' : World} {found : List String → OrganisationItem → Prop} {donateRefs : List DonateItemRef}
  {organisations : List OrganisationItem} {ids : List String} {id : String} {o : OrganisationItem}

theorem World.exists_organisation?_iff : (∃ o, w.organisation? id = some o) ↔ id ∈ w.2.organisations := by
  rw [← Pledge.exists_organisation?_iff]
  simp [World.organisation?]

end Join

section Fetch

variable {w w' : World} {source : Request → Source} {kept : Server} {d : Loop} {l : List Effect}
  {donateRefs : List DonateItemRef} {documents : List (Document DonateDoc)} {uid id : String}

end Fetch

end Pledge
