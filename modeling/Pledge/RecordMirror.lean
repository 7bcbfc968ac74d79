import Pledge.EventLoop.Mirror
import Pledge.EventLoop.Network
import Pledge.Settlement

/-!
# The local user record

One signed-in client reads and writes its `Users` document. Requests are handled and
answers arrive in any order, reads are answered by the server or on the device; the local record is
to mirror the document.
-/

namespace Pledge

open EventLoop

/-- `StartDonateViewController.continueButtonPressed`, up to the screen it pushes. -/
def StartDonate.continueButtonPressed (donateAmount : Int) : Prog :=
  (FirestoreManager.updateDefaultDonateAmount donateAmount fun _ => .stop).andThen
    (.modify (·.updateUser fun user => { user with defaultDonateAmount := donateAmount }) .stop)

inductive RecordOp
  | fetchUpdateUser
  | updateDefaultDonateAmount (amount : Int)
  | addTips (amount : Int)
  | continueButtonPressed (donateAmount : Int)
deriving DecidableEq, Repr

abbrev RecordNetwork : Type := Network Unit RecordOp Device Server Frame Effect Request.Response

abbrev RecordReply : Type := Reply Device Server Frame Effect Request.Response

namespace RecordOp

def completion (success : Bool) : Prog := .emit (.reported success) .stop

def program : RecordOp → Prog
  | fetchUpdateUser => FirestoreManager.fetchUpdateUser completion
  | updateDefaultDonateAmount amount => FirestoreManager.updateDefaultDonateAmount amount completion
  | addTips amount => FirestoreManager.addTips amount completion
  | continueButtonPressed donateAmount => StartDonate.continueButtonPressed donateAmount

/-- The one call that an operation makes for the signed-in user. -/
def call (uid : String) : RecordOp → Call Device Frame Effect Request.Response
  | fetchUpdateUser => ⟨.getUser uid, fun snapshot =>
      match LendUser.init? snapshot with
      | some user =>
        .modify (fun d => d.setUserManager { d.userManager with user := some user }) (completion true)
      | none => completion false⟩
  | updateDefaultDonateAmount amount =>
    ⟨.updateUser uid { defaultDonateAmount := some amount }, fun error : Option String =>
      if error.isNone then
        .modify (·.updateUser fun user => { user with defaultDonateAmount := amount })
          (completion error.isNone)
      else completion error.isNone⟩
  | addTips amount => ⟨.updateUser uid { tipsAmount := some amount }, fun error : Option String =>
      if error.isNone then
        .modify (·.updateUser fun user => { user with tips := some amount }) (completion error.isNone)
      else completion error.isNone⟩
  | continueButtonPressed donateAmount =>
    ⟨.updateUser uid { defaultDonateAmount := some donateAmount }, fun error : Option String =>
      if error.isNone then
        .modify (·.updateUser fun user => { user with defaultDonateAmount := donateAmount }) .stop
      else .stop⟩

/-- The write is left out when the local record has its amount already. -/
def Skips (d : Device) : RecordOp → Prop
  | updateDefaultDonateAmount amount => d.userManager.user.map LendUser.defaultDonateAmount = some amount
  | continueButtonPressed donateAmount =>
    d.userManager.user.map LendUser.defaultDonateAmount = some donateAmount
  | _ => False

instance (d : Device) (op : RecordOp) : Decidable (op.Skips d) := by
  unfold Skips
  cases op <;> infer_instance

/-- What the operation does to the device in the turn in which it is called. -/
def prepare (d : Device) : RecordOp → Device
  | continueButtonPressed donateAmount =>
    d.updateUser fun user => { user with defaultDonateAmount := donateAmount }
  | _ => d

/-- What it reports in that turn. -/
def reported : RecordOp → List Effect
  | updateDefaultDonateAmount _ => [.reported true]
  | _ => []

variable {uid : String} {c : Loop}

theorem exec_program (op : RecordOp) (hu : c.state.1.currentUser = some uid) :
    op.program.exec c = { c with
      state := (op.prepare c.state.1, c.state.2)
      pending := c.pending ++ if op.Skips c.state.1 then [] else [op.call uid]
      out := c.out ++ if op.Skips c.state.1 then op.reported else [] } := by
  cases op with
  | fetchUpdateUser =>
    have hs : ¬ Skips c.state.1 fetchUpdateUser := id
    rw [if_neg hs, if_neg hs, List.append_nil, program, FirestoreManager.fetchUpdateUser,
      FirestoreManager.withUid, Program.exec_read, hu]
    rfl
  | addTips amount =>
    have hs : ¬ Skips c.state.1 (addTips amount) := id
    rw [if_neg hs, if_neg hs, List.append_nil, program, FirestoreManager.addTips,
      FirestoreManager.withUid, Program.exec_read, hu]
    rfl
  | updateDefaultDonateAmount amount =>
    simp only [program, FirestoreManager.updateDefaultDonateAmount, FirestoreManager.withUid,
      Program.exec_read, hu, Skips, prepare, ne_eq]
    by_cases hs : c.state.1.userManager.user.map LendUser.defaultDonateAmount = some amount
    · simp [hs, completion, reported]
    · simp only [hs, not_false_eq_true, if_true, if_false, Program.exec_ask, List.append_nil]
      rfl
  | continueButtonPressed donateAmount =>
    simp only [program, StartDonate.continueButtonPressed, Program.exec_andThen,
      FirestoreManager.updateDefaultDonateAmount, FirestoreManager.withUid,
      Program.exec_read, hu, Skips, prepare, ne_eq]
    by_cases hs : c.state.1.userManager.user.map LendUser.defaultDonateAmount = some donateAmount
    · simp [hs, reported]
    · simp only [hs, not_false_eq_true, if_true, if_false, Program.exec_ask, Program.exec_modify,
        Program.exec_stop, List.append_nil]
      rfl

end RecordOp

/-! ## The two amounts -/

namespace Server

def defaultDonateAmount (s : Server) (uid : String) : Int :=
  ((s.account uid).user.bind UserDoc.defaultDonateAmount).getD 0

def tips (s : Server) (uid : String) : Option Int := (s.account uid).user.bind UserDoc.tipsAmount

/-- The `Users` document exists and decodes. -/
def Documented (s : Server) (uid : String) : Prop :=
  ∃ doc email, (s.account uid).user = some doc ∧ doc.email = some email

end Server

def Device.tips (d : Device) : Option Int := d.userManager.user.bind LendUser.tips

/-- Whether an answer reports success. -/
def succeeded : RecordReply → Bool
  | ⟨.getUser _, _, snapshot, _⟩ => Option.isSome snapshot
  | ⟨.updateUser .., _, error, _⟩ => Option.isNone error
  | _ => false

namespace RecordOp

def setsDefault : RecordOp → Bool
  | addTips _ => false
  | _ => true

def setsTips : RecordOp → Bool
  | fetchUpdateUser => true
  | addTips _ => true
  | _ => false

end RecordOp

/-- The default amount that an answer on its way will set: the one of the document when the
answer was given. -/
def carriedDefault (uid : String) (x : RecordOp × RecordReply) : Option Int :=
  if x.1.setsDefault ∧ succeeded x.2 then some (x.2.env.defaultDonateAmount uid) else none

def carriedTips (uid : String) (x : RecordOp × RecordReply) : Option (Option Int) :=
  if x.1.setsTips ∧ succeeded x.2 then some (x.2.env.tips uid) else none

/-- An answer to the operation's call, given while the document existed. -/
structure Known (uid : String) (x : RecordOp × RecordReply) : Prop where
  call : (⟨x.2.request, x.2.callback⟩ : Call Device Frame Effect Request.Response) = x.1.call uid
  served : ∃ s, s.Documented uid ∧ Serves s x.2.request x.2.response x.2.env

section Answer

variable {uid : String} {s : Server}

theorem userUpdated_account {d d' : Device} {s' : Server} {data : UserDoc} {r : Request}
    (h : Written (d, s) r uid
      (fun a b => ∃ old, a.user = some old ∧ b = { a with user := some (old.update data) })
      none (d', s')) :
    ∃ old, (s.account uid).user = some old ∧ (s'.account uid).user = some (old.update data) := by
  obtain ⟨a, ⟨old, hold, rfl⟩, he⟩ := h
  cases he
  exact ⟨old, hold, by simp⟩

/-- What the server's answer to an operation's call does to the document. -/
theorem known_document {x : RecordOp × RecordReply}
    (hc : (⟨x.2.request, x.2.callback⟩ : Call Device Frame Effect Request.Response) = x.1.call uid)
    (hd : s.Documented uid) (hs : Serves s x.2.request x.2.response x.2.env) :
    x.2.env.Documented uid ∧
      (carriedDefault uid x = none → x.2.env.defaultDonateAmount uid = s.defaultDonateAmount uid) ∧
      (carriedTips uid x = none → x.2.env.tips uid = s.tips uid) ∧
      (∀ amount, succeeded x.2 = true →
        x.1 = .updateDefaultDonateAmount amount ∨ x.1 = .continueButtonPressed amount →
        x.2.env.defaultDonateAmount uid = amount) := by
  obtain ⟨op, r, callback, a, s'⟩ := x
  obtain ⟨d, ha⟩ := hs
  obtain ⟨doc, email, hdoc, hemail⟩ := hd
  cases op with
  | fetchUpdateUser =>
    cases hc
    obtain ⟨he, -⟩ := id ha
    cases he
    exact ⟨⟨doc, email, hdoc, hemail⟩, fun _ => rfl, fun _ => rfl, by simp⟩
  | updateDefaultDonateAmount amount | continueButtonPressed amount =>
    cases hc
    simp only [Answers] at ha
    cases a with
    | some e =>
      have he : (d, s') = (d, s) := ha
      cases he
      exact ⟨⟨doc, email, hdoc, hemail⟩, fun _ => rfl, fun _ => rfl, by simp [succeeded]⟩
    | none =>
      obtain ⟨old, hold, hnew⟩ := userUpdated_account ha
      obtain rfl : doc = old := Option.some.inj (hdoc.symm.trans hold)
      refine ⟨⟨_, email, hnew, by simp [UserDoc.update, hemail]⟩, ?_, fun _ => ?_, ?_⟩
      · simp [carriedDefault, RecordOp.setsDefault, succeeded]
      · simp [Server.tips, hnew, hdoc, UserDoc.update]
      · rintro b - hb
        simp only [RecordOp.updateDefaultDonateAmount.injEq, RecordOp.continueButtonPressed.injEq,
          reduceCtorEq, or_false, false_or] at hb
        subst hb
        simp [Server.defaultDonateAmount, hnew, UserDoc.update]
  | addTips amount =>
    cases hc
    simp only [Answers] at ha
    cases a with
    | some e =>
      have he : (d, s') = (d, s) := ha
      cases he
      exact ⟨⟨doc, email, hdoc, hemail⟩, fun _ => rfl, fun _ => rfl, by simp⟩
    | none =>
      obtain ⟨old, hold, hnew⟩ := userUpdated_account ha
      obtain rfl : doc = old := Option.some.inj (hdoc.symm.trans hold)
      refine ⟨⟨_, email, hnew, by simp [UserDoc.update, hemail]⟩, fun _ => ?_, ?_, by simp⟩
      · simp [Server.defaultDonateAmount, hnew, hdoc, UserDoc.update]
      · simp [carriedTips, RecordOp.setsTips, succeeded]

theorem updateUser_default (d : Device) (amount : Int) (hu : d.userManager.user ≠ none) :
    (d.updateUser fun user => { user with defaultDonateAmount := amount }).userManager.user ≠ none ∧
      (d.updateUser fun user => { user with defaultDonateAmount := amount }).userManager.defaultDonateAmount
        = amount ∧
      (d.updateUser fun user => { user with defaultDonateAmount := amount }).tips = d.tips := by
  obtain ⟨user, huser⟩ := Option.ne_none_iff_exists'.mp hu
  simp [Device.updateUser, UserManager.defaultDonateAmount, Device.tips, huser]

/-- An answer that reports no success changes nothing. -/
theorem exec_failed {x : RecordOp × RecordReply}
    (hc : (⟨x.2.request, x.2.callback⟩ : Call Device Frame Effect Request.Response) = x.1.call uid)
    (hf : succeeded x.2 = false) (c : Loop) :
    ∃ o, (x.2.callback x.2.response).exec c = { c with out := c.out ++ o } ∧ .reported true ∉ o := by
  obtain ⟨op, r, callback, a, s'⟩ := x
  cases op with
  | fetchUpdateUser =>
    cases hc
    cases a with
    | none => exact ⟨[.reported false], rfl, by simp⟩
    | some snapshot => cases hf
  | updateDefaultDonateAmount amount | addTips amount =>
    cases hc
    cases a with
    | none => cases hf
    | some e => exact ⟨[.reported false], rfl, by simp⟩
  | continueButtonPressed amount =>
    cases hc
    cases a with
    | none => cases hf
    | some e =>
      refine ⟨[], ?_, by simp⟩
      rw [List.append_nil]
      rfl

/-- An answer that reports success sets what it carries. -/
theorem exec_succeeded {x : RecordOp × RecordReply} (hk : Known uid x) (hok : succeeded x.2 = true)
    (c : Loop) (hu : c.state.1.userManager.user ≠ none) :
    ∃ d o, (x.2.callback x.2.response).exec c = { c with state := (d, c.state.2), out := c.out ++ o } ∧
      d.currentUser = c.state.1.currentUser ∧ d.userManager.user ≠ none ∧
      d.userManager.defaultDonateAmount =
        (carriedDefault uid x).getD c.state.1.userManager.defaultDonateAmount ∧
      d.tips = (carriedTips uid x).getD c.state.1.tips := by
  obtain ⟨op, r, callback, a, s'⟩ := x
  obtain ⟨hc, s, ⟨doc, email, hdoc, hemail⟩, d, ha⟩ := hk
  obtain ⟨user, huser⟩ := Option.ne_none_iff_exists'.mp hu
  cases op with
  | fetchUpdateUser =>
    cases hc
    obtain ⟨he, hsnap⟩ := ha
    obtain rfl : s' = s := congrArg Prod.snd he
    have hsnap : a = none ∨ a = some ⟨uid, (s'.account uid).user⟩ := hsnap
    rcases hsnap with rfl | rfl
    · cases hok
    have hinit : ∃ user, LendUser.init? (some ⟨uid, (s'.account uid).user⟩) = some user ∧
        user.defaultDonateAmount = s'.defaultDonateAmount uid ∧ user.tips = s'.tips uid := by
      refine ⟨_, by rw [LendUser.init?, hdoc, Option.bind_some, Option.bind_some, hemail]; rfl, ?_, ?_⟩
      · simp [Server.defaultDonateAmount, hdoc]
      · simp [Server.tips, hdoc]
    obtain ⟨user', hinit, hdefault, htips⟩ := hinit
    refine ⟨c.state.1.setUserManager { c.state.1.userManager with user := some user' },
      [.reported true], ?_, rfl, nofun, ?_, ?_⟩
    · simp only [hinit]
      rfl
    · simp [UserManager.defaultDonateAmount, carriedDefault, RecordOp.setsDefault, succeeded, hdefault]
    · simp [Device.tips, carriedTips, RecordOp.setsTips, succeeded, htips]
  | updateDefaultDonateAmount amount =>
    cases hc
    simp only [Answers] at ha
    cases a with
    | some e => cases hok
    | none =>
      obtain ⟨old, hold, hnew⟩ := userUpdated_account ha
      obtain ⟨hset, hdefault, htips⟩ := updateUser_default c.state.1 amount hu
      refine ⟨_, [.reported true], rfl, rfl, hset, hdefault.trans ?_, htips.trans ?_⟩
      · simp [carriedDefault, RecordOp.setsDefault, succeeded, Server.defaultDonateAmount, hnew,
          UserDoc.update]
      · simp [carriedTips, RecordOp.setsTips]
  | continueButtonPressed amount =>
    cases hc
    simp only [Answers] at ha
    cases a with
    | some e => cases hok
    | none =>
      obtain ⟨old, hold, hnew⟩ := userUpdated_account ha
      obtain ⟨hset, hdefault, htips⟩ := updateUser_default c.state.1 amount hu
      refine ⟨c.state.1.updateUser fun user => { user with defaultDonateAmount := amount }, [], ?_, rfl,
        hset, hdefault.trans ?_, htips.trans ?_⟩
      · rw [List.append_nil]
        rfl
      · simp [carriedDefault, RecordOp.setsDefault, succeeded, Server.defaultDonateAmount, hnew,
          UserDoc.update]
      · simp [carriedTips, RecordOp.setsTips]
  | addTips amount =>
    cases hc
    simp only [Answers] at ha
    cases a with
    | some e => cases hok
    | none =>
      obtain ⟨old, hold, hnew⟩ := userUpdated_account ha
      refine ⟨c.state.1.updateUser fun user => { user with tips := some amount }, [.reported true], rfl,
        rfl, ?_, ?_, ?_⟩
      · simp [Device.updateUser, huser]
      · simp [Device.updateUser, UserManager.defaultDonateAmount, huser, carriedDefault,
          RecordOp.setsDefault]
      · simp [Device.updateUser, Device.tips, huser, carriedTips, RecordOp.setsTips, succeeded,
          Server.tips, hnew, UserDoc.update]

/-- What an answer does when it arrives: it sets what it carries. -/
theorem exec_answer {x : RecordOp × RecordReply} (hk : Known uid x) (c : Loop)
    (hu : c.state.1.userManager.user ≠ none) :
    ∃ d o, (x.2.callback x.2.response).exec c = { c with state := (d, c.state.2), out := c.out ++ o } ∧
      d.currentUser = c.state.1.currentUser ∧ d.userManager.user ≠ none ∧
      d.userManager.defaultDonateAmount =
        (carriedDefault uid x).getD c.state.1.userManager.defaultDonateAmount ∧
      d.tips = (carriedTips uid x).getD c.state.1.tips ∧
      (.reported true ∈ o → succeeded x.2 = true) := by
  cases hok : succeeded x.2 with
  | false =>
    obtain ⟨o, hexec, ho⟩ := exec_failed hk.call hok c
    refine ⟨c.state.1, o, hexec, rfl, hu, ?_, ?_, fun hmem => absurd hmem ho⟩
    · simp [carriedDefault, hok]
    · simp [carriedTips, hok]
  | true =>
    obtain ⟨d, o, hexec, hcurrent, hset, hdefault, htips⟩ := exec_succeeded hk hok c hu
    exact ⟨d, o, hexec, hcurrent, hset, hdefault, htips, fun _ => rfl⟩

end Answer

/-! ## The client over its network -/

namespace RecordNetwork

def device (n : RecordNetwork) : Device := (n.client ()).state

/-- How the SDK answers: as the server does, or, to a read, with what the device has kept of the
document and its own writes in flight laid over it. -/
inductive Responds (s : Server) : (r : Request) → r.Response → Server → Prop
  | server {r : Request} {a : r.Response} {s' : Server} (h : Serves s r a s') : Responds s r a s'
  | device (uid : String) (doc : Option UserDoc) : Responds s (.getUser uid) (some ⟨uid, doc⟩) s

/-- A StartDonate write of the amount has not been handled yet. -/
def Promised (pending : List (RecordOp × Call Device Frame Effect Request.Response)) (amount : Int) :
    Prop :=
  ∃ call, (.continueButtonPressed amount, call) ∈ pending

def freshestDefault (uid : String) (n : RecordNetwork) : Option Int :=
  freshest (n.answered.map (carriedDefault uid))

/-- What the moves of a run may not do: confirm an amount that the local record has and the
server may not, answer a read with another document than the server's, fail a StartDonate write
that nothing else makes up for, or deliver an answer past an older one that carries something else. -/
def Orderly (uid : String) (n : RecordNetwork) :
    Move RecordOp Device Server Frame Effect Request.Response → Prop
  | .call op p => p = op.program ∧ ∀ amount, op = .updateDefaultDonateAmount amount →
      op.Skips n.device → n.freshestDefault uid = some amount ∨
        (n.freshestDefault uid = none ∧ ¬ Promised n.pending amount)
  | .serve pre op reply post => Serves n.env reply.request reply.response reply.env ∧
      ∀ amount, op = .continueButtonPressed amount → succeeded reply = false →
        n.device.userManager.defaultDonateAmount = amount →
          n.freshestDefault uid ≠ none ∨ n.env.defaultDonateAmount uid = amount ∨
            Promised (pre ++ post) amount
  | .deliver pre op reply post =>
      InTime (pre.map (carriedDefault uid)) (carriedDefault uid (op, reply))
        (post.map (carriedDefault uid)) ∧
      InTime (pre.map (carriedTips uid)) (carriedTips uid (op, reply)) (post.map (carriedTips uid))

/-- What holds between two moves. -/
structure Mirrors (uid : String) (n : RecordNetwork) : Prop where
  signedIn : n.device.currentUser = some uid
  user : n.device.userManager.user ≠ none
  document : n.env.Documented uid
  pending : ∀ x ∈ n.pending, x.2 = x.1.call uid
  answered : ∀ x ∈ n.answered, Known uid x
  default : Agrees (n.env.defaultDonateAmount uid) n.device.userManager.defaultDonateAmount
    (n.answered.map (carriedDefault uid)) (Promised n.pending)
  tips : Agrees (n.env.tips uid) n.device.tips (n.answered.map (carriedTips uid)) fun _ => False

variable {uid : String} {n n' : RecordNetwork} {op : RecordOp}

abbrev owner : RecordOp → Unit := fun _ => ()

theorem turn_program (op : RecordOp) (hu : n.device.currentUser = some uid) :
    device (n.turn owner op op.program) = op.prepare n.device ∧
      (n.turn owner op op.program).pending =
        n.pending ++ (if op.Skips n.device then [] else [(op, op.call uid)]) ∧
      ((n.turn owner op op.program).client ()).out =
        (n.client ()).out ++ if op.Skips n.device then op.reported else [] := by
  have hexec := RecordOp.exec_program
    (c := ⟨(n.device, n.env), (n.client ()).heap, [], (n.client ()).out⟩) op hu
  have hturn : n.turn owner op op.program = { n with
      client := Function.update n.client () ⟨op.prepare n.device, (n.client ()).heap,
        (n.client ()).out ++ if op.Skips n.device then op.reported else []⟩
      pending := n.pending ++
        (if op.Skips n.device then [] else [op.call uid]).map (op, ·) } := by
    show ({ n with client := _, pending := _ } : RecordNetwork) = _
    rw [show (⟨((n.client (owner op)).state, n.env), (n.client (owner op)).heap, [],
      (n.client (owner op)).out⟩ : Loop) = ⟨(n.device, n.env), (n.client ()).heap, [],
      (n.client ()).out⟩ from rfl, hexec]
    rfl
  rw [hturn]
  refine ⟨by simp [device], ?_, by simp⟩
  dsimp only
  split <;> rfl

theorem promised_append {pending : List (RecordOp × Call Device Frame Effect Request.Response)}
    {l : List (RecordOp × Call Device Frame Effect Request.Response)} {amount : Int}
    (h : Promised pending amount) : Promised (pending ++ l) amount := by
  obtain ⟨call, hmem⟩ := h
  exact ⟨call, List.mem_append_left _ hmem⟩

theorem mirrors_call (h : Mirrors uid n) : Mirrors uid (n.turn owner op op.program) := by
  obtain ⟨hdevice, hpending, -⟩ := turn_program op h.signedIn
  have hcalls : ∀ x ∈ (n.turn owner op op.program).pending, x.2 = x.1.call uid := by
    intro x hx
    rw [hpending] at hx
    rcases List.mem_append.mp hx with hx | hx
    · exact h.pending x hx
    · split at hx
      · cases hx
      · obtain rfl := List.mem_singleton.mp hx
        rfl
  have hkept : op.prepare n.device = n.device → Mirrors uid (n.turn owner op op.program) := by
    intro hsame
    rw [hsame] at hdevice
    refine ⟨by rw [hdevice, h.signedIn], by rw [hdevice]; exact h.user, h.document, hcalls,
      h.answered, ?_, by rw [hdevice]; exact h.tips⟩
    rw [hdevice, hpending]
    exact agrees_mono h.default promised_append
  cases op with
  | fetchUpdateUser | updateDefaultDonateAmount amount | addTips amount => exact hkept rfl
  | continueButtonPressed donateAmount =>
    obtain ⟨hset, hdefault, htips⟩ := updateUser_default n.device donateAmount h.user
    by_cases hs : (RecordOp.continueButtonPressed donateAmount).Skips n.device
    · -- the record has the amount already, so that setting it changes nothing
      refine hkept ?_
      obtain ⟨user, huser, rfl⟩ := Option.map_eq_some_iff.mp hs
      have hmap : n.device.userManager.user.map (fun user' =>
          { user' with defaultDonateAmount := user.defaultDonateAmount }) = n.device.userManager.user := by
        rw [huser]
        rfl
      show n.device.setUserManager { n.device.userManager with user := _ } = n.device
      rw [hmap]
      rfl
    · rw [if_neg hs] at hpending
      refine ⟨by rw [hdevice]; exact h.signedIn, by rw [hdevice]; exact hset, h.document, hcalls,
        h.answered, ?_, ?_⟩
      · rw [hdevice, hpending]
        refine (congrArg (Agrees _ · _ _) hdefault).mpr (agrees_promised h.default ?_)
        exact ⟨_, List.mem_append_right _ (List.mem_singleton.mpr rfl)⟩
      · rw [hdevice]
        exact (congrArg (Agrees _ · _ _) htips).mpr h.tips

section Moves

variable {reply : RecordReply} {pre post : List (RecordOp × Call Device Frame Effect Request.Response)}

theorem mirrors_serve (h : Mirrors uid n)
    (hp : n.pending = pre ++ (op, ⟨reply.request, reply.callback⟩) :: post)
    (hok : Orderly uid n (.serve pre op reply post)) :
    Mirrors uid { n with
      env := reply.env, pending := pre ++ post, answered := n.answered ++ [(op, reply)] } := by
  have hs := hok.1
  have hcall := h.pending _ (mem_of_taken hp)
  obtain ⟨hdoc, hdefault, htips, -⟩ := known_document (x := (op, reply)) hcall h.document hs
  refine ⟨h.signedIn, h.user, hdoc, fun x hx => h.pending x (mem_of_mem_rest hp hx), fun x hx => ?_,
    ?_, ?_⟩
  · rcases List.mem_append.mp hx with hx | hx
    · exact h.answered x hx
    · obtain rfl := List.mem_singleton.mp hx
      exact ⟨hcall, n.env, h.document, hs⟩
  · rw [List.map_append, List.map_singleton]
    cases hc : carriedDefault uid (op, reply) with
    | some v =>
      obtain ⟨-, rfl⟩ := Option.ite_some_none_eq_some.mp hc
      exact agrees_carried
    | none =>
      dsimp only
      rw [hdefault hc]
      refine agrees_silent h.default fun hfresh hne hpromised => ?_
      obtain ⟨call, hpromise⟩ := hpromised
      rw [hp] at hpromise
      rcases List.mem_append.mp hpromise with hpromise | hpromise
      · exact ⟨call, List.mem_append_left _ hpromise⟩
      · rcases List.mem_cons.mp hpromise with he | hpromise
        · -- the promised write itself was turned down
          have hop : op = .continueButtonPressed n.device.userManager.defaultDonateAmount :=
            (congrArg Prod.fst he).symm
          have hfailed : succeeded reply = false := by
            rw [hop] at hc
            simpa [carriedDefault, RecordOp.setsDefault] using hc
          rcases hok.2 _ hop hfailed rfl with hsome | hsame | hother
          · exact absurd hfresh hsome
          · exact absurd hsame.symm hne
          · exact hother
        · exact ⟨call, List.mem_append_right _ hpromise⟩
  · rw [List.map_append, List.map_singleton]
    cases hc : carriedTips uid (op, reply) with
    | some v =>
      obtain ⟨-, rfl⟩ := Option.ite_some_none_eq_some.mp hc
      exact agrees_carried
    | none =>
      dsimp only
      rw [htips hc]
      exact agrees_silent h.tips fun _ _ hf => hf

end Moves

section Deliver

variable {reply : RecordReply} {pre post : List (RecordOp × RecordReply)}

/-- The client takes the turn of an answer that has arrived. -/
theorem turn_answer (h : Mirrors uid n) (hp : n.answered = pre ++ (op, reply) :: post) :
    ∃ d o, ({ n with answered := pre ++ post } : RecordNetwork).turn owner op
        (reply.callback reply.response) = { n with
          client := Function.update n.client () ⟨d, (n.client ()).heap, (n.client ()).out ++ o⟩
          answered := pre ++ post } ∧
      d.currentUser = n.device.currentUser ∧ d.userManager.user ≠ none ∧
      d.userManager.defaultDonateAmount =
        (carriedDefault uid (op, reply)).getD n.device.userManager.defaultDonateAmount ∧
      d.tips = (carriedTips uid (op, reply)).getD n.device.tips ∧
      (.reported true ∈ o → succeeded reply = true) := by
  obtain ⟨d, o, hexec, hrest⟩ := exec_answer (h.answered _ (mem_of_taken hp))
    ⟨(n.device, n.env), (n.client ()).heap, [], (n.client ()).out⟩ h.user
  refine ⟨d, o, ?_, hrest⟩
  show ({ n with client := _, pending := _, answered := _ } : RecordNetwork) = _
  rw [show (⟨((n.client (owner op)).state, n.env), (n.client (owner op)).heap, [],
    (n.client (owner op)).out⟩ : Loop) = ⟨(n.device, n.env), (n.client ()).heap, [],
    (n.client ()).out⟩ from rfl, hexec]
  simp

theorem mirrors_deliver (h : Mirrors uid n) (hp : n.answered = pre ++ (op, reply) :: post)
    (hok : Orderly uid n (.deliver pre op reply post)) :
    Mirrors uid (({ n with answered := pre ++ post } : RecordNetwork).turn owner op
      (reply.callback reply.response)) := by
  obtain ⟨d, o, hturn, hcurrent, hset, hdefault, htips, -⟩ := turn_answer h hp
  have hd := h.default
  have ht := h.tips
  rw [hp, List.map_append, List.map_cons] at hd ht
  rw [hturn]
  refine ⟨by simpa [device] using hcurrent.trans h.signedIn, by simpa [device] using hset, h.document,
    h.pending, fun x hx => h.answered x (mem_of_mem_rest hp hx), ?_, ?_⟩
  · simp only [device, Function.update_self, hdefault, List.map_append]
    exact agrees_delivered hd hok.1
  · simp only [device, Function.update_self, htips, List.map_append]
    exact agrees_delivered ht hok.2

end Deliver

theorem mirrors_step {m : Move RecordOp Device Server Frame Effect Request.Response}
    (h : Mirrors uid n) (hok : Orderly uid n m) (hs : Network.Step owner Responds n m n') :
    Mirrors uid n' := by
  cases hs with
  | call op p =>
    obtain ⟨rfl, -⟩ := hok
    exact mirrors_call h
  | serve hp _ => exact mirrors_serve h hp hok
  | deliver hp => exact mirrors_deliver h hp hok

/-! ## What the local record is worth -/

/-- Nothing is in flight and the local record holds the two amounts of the document. -/
structure Started (uid : String) (n : RecordNetwork) : Prop where
  quiet : n.Quiet
  signedIn : n.device.currentUser = some uid
  user : n.device.userManager.user ≠ none
  document : n.env.Documented uid
  default : n.device.userManager.defaultDonateAmount = n.env.defaultDonateAmount uid
  tips : n.device.tips = n.env.tips uid

theorem mirrors_started (h : Started uid n) : Mirrors uid n := by
  refine ⟨h.signedIn, h.user, h.document, ?_, ?_, ?_, ?_⟩
  · rw [h.quiet.1]
    exact fun x hx => by cases hx
  · rw [h.quiet.2]
    exact fun x hx => by cases hx
  · rw [h.quiet.2]
    exact .inl h.default
  · rw [h.quiet.2]
    exact .inl h.tips

/-- The operation that a move belongs to. -/
def operation : Move RecordOp Device Server Frame Effect Request.Response → RecordOp
  | .call op _ => op
  | .serve _ op _ _ => op
  | .deliver _ op _ _ => op

/-- The server when what the move reports was applied or confirmed: an answer reports on the
server that gave it, a call on the server as it is. -/
def asOf (n : RecordNetwork) : Move RecordOp Device Server Frame Effect Request.Response → Server
  | .deliver _ _ reply _ => reply.env
  | _ => n.env

/-- Success is reported on the way from `n` to `n'`. -/
def Reports (n n' : RecordNetwork) : Prop :=
  ∃ o, (n'.client ()).out = (n.client ()).out ++ o ∧ .reported true ∈ o

/-- An update that reports success found or left its amount on the server. -/
theorem reports_default {m : Move RecordOp Device Server Frame Effect Request.Response} {amount : Int}
    (h : Mirrors uid n) (hok : Orderly uid n m) (hs : Network.Step owner Responds n m n')
    (hm : operation m = .updateDefaultDonateAmount amount) (hr : Reports n n') :
    (asOf n m).defaultDonateAmount uid = amount := by
  obtain ⟨o, ho, hmem⟩ := hr
  cases hs with
  | call op p =>
    obtain ⟨rfl, hskip⟩ := hok
    obtain ⟨-, -, hout⟩ := turn_program op h.signedIn
    obtain rfl := List.append_cancel_left (ho.symm.trans hout)
    have hs : op.Skips n.device := by
      by_contra hs
      rw [if_neg hs] at hmem
      cases hmem
    have hd := h.default
    unfold Agrees at hd
    rcases hskip amount hm hs with hfresh | ⟨hfresh, hpromised⟩
    · rw [show freshest _ = some amount from hfresh] at hd
      exact hd.symm
    · rw [show freshest _ = none from hfresh] at hd
      rw [show op = _ from hm] at hs
      have hcopy : n.device.userManager.defaultDonateAmount = amount := by
        rw [UserManager.defaultDonateAmount, show n.device.userManager.user.map _ = _ from hs]
        rfl
      rw [hcopy] at hd
      exact (hd.resolve_right hpromised).symm
  | serve hp hs =>
    obtain rfl : o = [] := by simpa using ho
    cases hmem
  | @deliver pre post op reply hp =>
    obtain ⟨d, o', hturn, -, -, -, -, hreported⟩ := turn_answer h hp
    rw [hturn] at ho
    obtain rfl : o' = o := by simpa using ho
    obtain ⟨hcall, s, hdoc, hserves⟩ := h.answered _ (mem_of_taken hp)
    exact (known_document hcall hdoc hserves).2.2.2 amount (hreported hmem) (.inl hm)

/-- In orderly runs the local record is the document's whenever nothing is in flight, and
an update of the default amount that reports success found or left it on the server. -/
theorem record_mirrors {n₀ : RecordNetwork} (h₀ : Started uid n₀)
    (hr : Network.Run owner Responds (Orderly uid) n₀ n) :
    (n.Quiet → n.device.userManager.defaultDonateAmount = n.env.defaultDonateAmount uid ∧
      n.device.tips = n.env.tips uid) ∧
    ∀ m n' amount, Orderly uid n m → Network.Step owner Responds n m n' →
      operation m = .updateDefaultDonateAmount amount → Reports n n' →
      (asOf n m).defaultDonateAmount uid = amount := by
  have h := Network.run_invariant (fun _ _ _ h hok hs => mirrors_step h hok hs) hr (mirrors_started h₀)
  refine ⟨fun hq => ?_, fun m n' amount hok hs hm => reports_default h hok hs hm⟩
  have hd := h.default
  have ht := h.tips
  rw [hq.2] at hd ht
  refine ⟨agrees_quiet hd ?_, agrees_quiet ht id⟩
  rw [hq.1]
  rintro ⟨call, hmem⟩
  cases hmem

/-! ## The donor presses Continue -/

/-- The donor's device, with nothing in flight. -/
def donorNetwork : RecordNetwork :=
  { client := fun _ => ⟨donorWorld.1, [], []⟩
    env := donorWorld.2
    pending := []
    answered := [] }

theorem started_donorNetwork : Started "ann" donorNetwork :=
  ⟨⟨rfl, rfl⟩, rfl, nofun, ⟨_, _, rfl, rfl⟩, rfl, rfl⟩

/-- Continue with ten was pressed. -/
def pressedTen : RecordNetwork :=
  donorNetwork.turn owner (.continueButtonPressed 10) (RecordOp.continueButtonPressed 10).program

/-- The donor's server once the write of ten was carried out. -/
def tenServer : Server :=
  (donorWorld.2.setAccount "ann" { donorWorld.2.account "ann" with
    user := some { email := some "ann@mail.com", displayName := some "Ann Lee"
                   defaultDonateAmount := some 10, tipsAmount := some 3 } }).record
    [.updateUser "ann" { defaultDonateAmount := some 10 }]

/-- The answer to the write of ten. -/
def tenReply (error : Option String) (s : Server) : RecordReply :=
  ⟨_, ((RecordOp.continueButtonPressed 10).call "ann").2, error, s⟩

theorem pressedTen_pending : pressedTen.pending = [] ++ (RecordOp.continueButtonPressed 10,
    (RecordOp.continueButtonPressed 10).call "ann") :: [] := rfl

theorem record_mirrors_donor : ∃ n : RecordNetwork,
    Network.Run owner Responds (Orderly "ann") donorNetwork n ∧
      n.env.defaultDonateAmount "ann" = 10 ∧ n.device.userManager.defaultDonateAmount = 10 := by
  have hcalled : Network.Run owner Responds (Orderly "ann") donorNetwork pressedTen :=
    .step .refl (m := .call (.continueButtonPressed 10) _) ⟨rfl, nofun⟩ (.call _ _ _)
  have hten : Serves donorWorld.2 (.updateUser "ann" { defaultDonateAmount := some 10 }) none tenServer :=
    ⟨donorWorld.1, _, ⟨_, rfl, rfl⟩, rfl⟩
  have hserved := hcalled.step
    (m := .serve [] (.continueButtonPressed 10) (tenReply none tenServer) [])
    ⟨hten, fun _ _ hf => by cases hf⟩ (.serve pressedTen_pending (.server hten))
  have hdelivered := hserved.step
    (m := .deliver [] (.continueButtonPressed 10) (tenReply none tenServer) [])
    ⟨fun _ _ => .inr nofun, fun _ _ => .inr nofun⟩ (.deliver rfl)
  have hlocal := ((record_mirrors started_donorNetwork hdelivered).1 ⟨rfl, rfl⟩).1
  have hamount : tenServer.defaultDonateAmount "ann" = 10 := by decide
  exact ⟨_, hdelivered, hamount, hlocal.trans hamount⟩

/-- The write of ten is turned down, and the local record keeps it. -/
theorem not_record_mirrors :
    ¬ ∀ n₀ n : RecordNetwork, Started "ann" n₀ →
      Network.Run owner Responds (fun _ m => ∀ op p, m = .call op p → p = op.program) n₀ n →
      n.Quiet → n.device.userManager.defaultDonateAmount = n.env.defaultDonateAmount "ann" := by
  intro h
  have hcalled : Network.Run owner Responds (fun _ m => ∀ op p, m = .call op p → p = op.program)
      donorNetwork pressedTen :=
    .step .refl (fun op p he => by cases he; rfl) (.call _ _ _)
  have hserved := hcalled.step
    (m := .serve [] (.continueButtonPressed 10) (tenReply (some "error") donorWorld.2) [])
    (fun op p he => by cases he) (.serve pressedTen_pending (.server ⟨donorWorld.1, rfl⟩))
  have hdelivered := hserved.step
    (m := .deliver [] (.continueButtonPressed 10) (tenReply (some "error") donorWorld.2) [])
    (fun op p he => by cases he) (.deliver rfl)
  have hsame := h _ _ started_donorNetwork hdelivered ⟨rfl, rfl⟩
  exact absurd (show (10 : Int) = 7 from hsame) (by decide)

end RecordNetwork

end Pledge
