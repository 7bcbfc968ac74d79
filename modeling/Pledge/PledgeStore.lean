import Pledge.World

/-! What an answer does to the stored pledges of a user. -/
namespace Pledge

/-- The pledges of account `uid` before and after `r` was answered. -/
inductive PledgeChange (uid : String) (r : Request) (a b : Account) : Prop
  | kept (h : b.donates = a.donates) (hd : b.deletedDonates = a.deletedDonates)
  | added {id : String} {data : DonateDoc} (hr : r = .addDonate uid data) (hid : id ∉ a.donates)
      (hdel : id ∉ a.deletedDonates) (h : b.donates = a.donates.insert id data)
      (hd : b.deletedDonates = a.deletedDonates)
  | edited {id : String} {data : DonateDoc} (hr : r = .setDonate uid id data)
      (h : b.donates = a.donates.insert id (((a.donates.lookup id).getD {}).merge data))
      (hd : b.deletedDonates = a.deletedDonates)
  | deleted {id : String} (hr : r = .deleteDonate uid id) (h : b.donates = a.donates.erase id)
      (hd : b.deletedDonates = id :: a.deletedDonates)

variable {w w' : World} {r : Request} {uid : String}

/-- A write changes only the account it is for, and only as its effect says. -/
theorem written_account (uid : String) {v : String} {ok : Account → Account → Prop} {error : Option String}
    (h : Written w r v ok error w') :
    w'.2.account uid = w.2.account uid ∨
      (v = uid ∧ error = none ∧ ok (w.2.account uid) (w'.2.account uid)) := by
  cases error with
  | some e =>
    obtain rfl : w' = w := h
    exact .inl rfl
  | none =>
    obtain ⟨a, hok, rfl⟩ := h
    by_cases hv : v = uid
    · subst hv
      refine .inr ⟨rfl, rfl, ?_⟩
      simpa using hok
    · exact .inl (by simp [Server.setAccount, Server.record, Function.update_of_ne (Ne.symm hv)])

/-- What may happen to the account of `uid` when a request is answered. -/
inductive AccountChange (uid : String) : Request → Account → Account → Prop
  | kept (r : Request) (a : Account) : AccountChange uid r a a
  | created (email password : String) (a : Account) :
      AccountChange uid (.createUser email password) a { a with email := some email }
  | userSet (data : UserDoc) (a : Account) :
      AccountChange uid (.setUser uid data) a { a with user := some data }
  | userUpdated {old : UserDoc} (data : UserDoc) (a : Account) (hold : a.user = some old) :
      AccountChange uid (.updateUser uid data) a { a with user := some (old.update data) }
  | paymentAdded {id : String} (data : PaymentDoc) (a : Account) (hid : id ∉ a.paymentHistory) :
      AccountChange uid (.addPayment uid data) a
        { a with paymentHistory := a.paymentHistory.insert id data }
  | donateAdded {id : String} (data : DonateDoc) (a : Account) (hid : id ∉ a.donates)
      (hdel : id ∉ a.deletedDonates) :
      AccountChange uid (.addDonate uid data) a { a with donates := a.donates.insert id data }
  | donateSet (id : String) (data : DonateDoc) (a : Account) :
      AccountChange uid (.setDonate uid id data) a
        { a with donates := a.donates.insert id (((a.donates.lookup id).getD {}).merge data) }
  | donateDeleted (id : String) (a : Account) :
      AccountChange uid (.deleteDonate uid id) a
        { a with donates := a.donates.erase id, deletedDonates := id :: a.deletedDonates }

theorem answers_account {a : r.Response} (h : Answers w r a w') (uid : String) :
    AccountChange uid r (w.2.account uid) (w'.2.account uid) := by
  have hsame : w'.2.account uid = w.2.account uid →
      AccountChange uid r (w.2.account uid) (w'.2.account uid) := by
    intro he
    rw [he]
    exact .kept r _
  cases r with
  | signIn email password =>
    cases a with
    | some e =>
      obtain rfl : w' = w := h
      exact hsame rfl
    | none =>
      obtain ⟨v, -, rfl⟩ := h
      exact hsame rfl
  | createUser email password =>
    obtain ⟨user, error⟩ := a
    cases error with
    | some e =>
      obtain rfl : w' = w := by cases user <;> exact h
      exact hsame rfl
    | none =>
      cases user with
      | none =>
        obtain rfl : w' = w := h
        exact hsame rfl
      | some v =>
        obtain ⟨-, -, rfl⟩ := h
        by_cases hv : v = uid
        · subst hv
          rw [Server.record_account, Server.setAccount_account]
          exact .created email password _
        · exact hsame (by
            simp [Server.setAccount, Server.record, Function.update_of_ne (Ne.symm hv)])
  | commitChanges | sendPasswordReset | getDonatesForOrganisation =>
    obtain rfl : w' = w := h
    exact hsame rfl
  | getUser | getFilters | getOrganisationsByCause | getOrganisations | getOrganisationsIn
  | getCauses | getPaymentHistory | getDonates =>
    obtain ⟨rfl, -⟩ := h
    exact hsame rfl
  | pay amount mode =>
    obtain ⟨n, -, -, rfl⟩ := h
    exact hsame rfl
  | setUser v data =>
    simp only [Answers] at h
    rcases written_account uid h with he | ⟨rfl, -, he⟩
    · exact hsame he
    · exact he ▸ .userSet data _
  | updateUser v data =>
    simp only [Answers] at h
    rcases written_account uid h with he | ⟨rfl, -, old, hold, he⟩
    · exact hsame he
    · exact he ▸ .userUpdated data _ hold
  | addPayment v data =>
    simp only [Answers] at h
    rcases written_account uid h with he | ⟨rfl, -, id, hid, he⟩
    · exact hsame he
    · exact he ▸ .paymentAdded data _ hid
  | addDonate v data =>
    simp only [Answers] at h
    rcases written_account uid h with he | ⟨rfl, -, id, hid, hdel, he⟩
    · exact hsame he
    · exact he ▸ .donateAdded data _ hid hdel
  | setDonate v id data =>
    simp only [Answers] at h
    rcases written_account uid h with he | ⟨rfl, -, he⟩
    · exact hsame he
    · exact he ▸ .donateSet id data _
  | deleteDonate v id =>
    simp only [Answers] at h
    rcases written_account uid h with he | ⟨rfl, -, he⟩
    · exact hsame he
    · exact he ▸ .donateDeleted id _

theorem AccountChange.pledges {a b : Account} (h : AccountChange uid r a b) : PledgeChange uid r a b := by
  cases h with
  | kept | created | userSet | userUpdated | paymentAdded => exact .kept rfl rfl
  | donateAdded data a hid hdel => exact .added rfl hid hdel rfl rfl
  | donateSet id data a => exact .edited rfl rfl rfl
  | donateDeleted id a => exact .deleted rfl rfl rfl

theorem answers_pledges {a : r.Response} (h : Answers w r a w') (uid : String) :
    PledgeChange uid r (w.2.account uid) (w'.2.account uid) :=
  (answers_account h uid).pledges

end Pledge
