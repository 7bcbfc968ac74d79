import Pledge.Browsing
import Pledge.EventLoop.Interference

/-!
# The app with requests in flight

What a touch has asked for may still be in flight when the next touch is taken: the tips of an
accepted charge, the record loads of Home and My Impacts and the write of StartDonate wait on a
screen that goes on taking touches. Here answers arrive one at a time, in any order, between
touches of any kind; those that an activity view would keep away are among them. The runs in
which every touch is answered in full are runs of this kind.
-/

namespace Pledge

open EventLoop

/-- A touch with the app that took it, and what is left of it: what its closures have captured, what
it still waits for, and what it has shown. -/
structure Taken extends Waiting Device Frame Effect Request.Response where
  app : App
  touch : Interaction

/-- The confirmation screen of a checkout. -/
def Taken.confirmation? (x : Taken) : Option DonateConfirmation :=
  match x.touch, x.app.page with
  | .completeCheckoutButtonPressed, .bucket _ ⟨_, .confirmation vc⟩ => some vc
  | _, _ => none

/-- The app and the touches it has taken, the first one first. -/
structure Busy where
  app : App
  taken : List Taken := []

/-- What happens next: a touch is taken, or an answer to the touch with number `j` arrives. It is
lost on a screen that is gone, whose closures hold it weakly. -/
inductive Busy.Move
  | touch (i : Interaction)
  | answer (j : ℕ) (r : Request) (a : r.Response)
  | lost (j : ℕ) (r : Request) (a : r.Response)

/-- The services answer, or a read is answered out of what the device has kept. -/
def AnswersOrKept (Kept : Server → Server → Prop) (w : World) (r : Request) (a : r.Response) (w' : World) :
    Prop :=
  Answers w r a w' ∨ r.Reads ∧ w' = w ∧ ∃ kept w'', Kept w.2 kept ∧ Answers (w.1, kept) r a w''

theorem userManager_kept {r : Request} {a : r.Response} {w w' : World} {Kept : Server → Server → Prop}
    (h : AnswersOrKept Kept w r a w') : w'.1.userManager = w.1.userManager := by
  rcases h with h | ⟨-, rfl, -⟩
  · exact (answers_session h).1
  · rfl

/-- What becomes of effects: each is shown, or its screen is gone. A redirect always is shown, and
My Impacts keeps its pledges behind any other screen. -/
inductive App.Sees : App → List Effect → App → Prop
  | nil (a : App) : Sees a [] a
  | shown {a a' : App} {o : Effect} {l : List Effect} (h : Sees (a.shown o) l a') : Sees a (o :: l) a'
  | gone {a a' : App} {o : Effect} {l : List Effect} (ho : o ≠ .redirectToAuth) (h : Sees a l a') :
      Sees a (o :: l) a'
  | behind {a a' : App} {activeDonates : List DonateItem} {l : List Effect}
      (h : Sees { a with activeDonates } l a') : Sees a (.showActiveDonates activeDonates :: l) a'

/-- One move, and the effects of its turn. -/
inductive Busy.Step (serve : World → (r : Request) → r.Response → World → Prop) :
    Busy → Move × List Effect → Busy → Prop
  | touch {s : Busy} {i : Interaction} {b a : App} {p : Prog} {d : Loop}
      (hp : App.press i s.app = some (b, p)) (hd : p.exec (.fresh _ b.world) = d)
      (hl : App.Sees { b with world := d.state } d.out a) :
      Step serve s (.touch i, d.out)
        { app := a, taken := s.taken ++ [⟨d.waiting, s.app, i⟩] }
  | answer {s : Busy} {j : ℕ} {x : Taken} {r : Request} {callback : r.Response → Prog}
      {pre post : List (Call Device Frame Effect Request.Response)} {response : r.Response} {w : World}
      {d : Loop} {l : List Effect} {a : App} (hx : s.taken[j]? = some x)
      (hp : x.pending = pre ++ ⟨r, callback⟩ :: post) (hs : serve s.app.world r response w)
      (hd : (callback response).exec ⟨w, x.heap, pre ++ post, x.out⟩ = d) (ho : d.out = x.out ++ l)
      (hl : App.Sees { s.app with world := d.state } l a) :
      Step serve s (.answer j r response, l)
        { app := a, taken := s.taken.set j ⟨d.waiting, x.app, x.touch⟩ }
  | lost {s : Busy} {j : ℕ} {x : Taken} {r : Request} {callback : r.Response → Prog}
      {pre post : List (Call Device Frame Effect Request.Response)} {response : r.Response} {w : World}
      (hx : s.taken[j]? = some x) (hp : x.pending = pre ++ ⟨r, callback⟩ :: post)
      (hs : serve s.app.world r response w) :
      Step serve s (.lost j r response, [])
        { app := { s.app with world := w }
          taken := s.taken.set j { x with pending := pre ++ post } }

/-- Where more is answered there are more moves. -/
theorem Busy.Step.mono {serve serve' : World → (r : Request) → r.Response → World → Prop} {s s' : Busy}
    {e : Move × List Effect} (hserve : ∀ w r a w', serve w r a w' → serve' w r a w')
    (h : Busy.Step serve s e s') : Busy.Step serve' s e s' := by
  cases h with
  | touch hp hd hl => exact .touch hp hd hl
  | answer hx hp hs hd ho hl => exact .answer hx hp (hserve _ _ _ _ hs) hd ho hl
  | lost hx hp hs => exact .lost hx hp (hserve _ _ _ _ hs)

/-- The app as it is when nothing has been touched yet. -/
def App.idle (a : App) : Busy := { app := a }

namespace App

variable {a a' : App} {l : List Effect} {P : App → Prop}

/-- What each effect keeps, wherever it is shown, all of them keep. -/
theorem Sees.keeps (h : a.Sees l a') (hshown : ∀ b, ∀ o ∈ l, P b → P (b.shown o))
    (hbehind : ∀ b, ∀ activeDonates, .showActiveDonates activeDonates ∈ l → P b → P { b with activeDonates })
    (ha : P a) : P a' := by
  induction h with
  | nil => exact ha
  | @shown a _ o _ _ ih =>
    exact ih (fun b o ho => hshown b o (List.mem_cons_of_mem _ ho))
      (fun b ds hds => hbehind b ds (List.mem_cons_of_mem _ hds)) (hshown a o List.mem_cons_self ha)
  | gone _ _ ih =>
    exact ih (fun b o ho => hshown b o (List.mem_cons_of_mem _ ho))
      (fun b ds hds => hbehind b ds (List.mem_cons_of_mem _ hds)) ha
  | @behind a _ ds _ _ ih =>
    exact ih (fun b o ho => hshown b o (List.mem_cons_of_mem _ ho))
      (fun b ds hds => hbehind b ds (List.mem_cons_of_mem _ hds)) (hbehind a ds List.mem_cons_self ha)

@[simp] theorem Sees.world (h : a.Sees l a') : a'.world = a.world :=
  h.keeps (P := fun b => b.world = a.world) (fun b o _ hb => (shown_world b o).trans hb) (fun _ _ _ hb => hb) rfl

theorem sees_foldl_shown (a : App) (l : List Effect) : a.Sees l (l.foldl shown a) := by
  induction l generalizing a with
  | nil => exact .nil a
  | cons o l ih => exact .shown (ih (a.shown o))

/-- Where an effect leads depends on the page, not on the world. -/
theorem shown_withWorld (a : App) (o : Effect) (w : World) :
    { a.shown o with world := w } = ({ a with world := w } : App).shown o := by
  obtain ⟨v, page, ds⟩ := a
  unfold shown
  split <;> simp_all

theorem foldl_shown_withWorld (a : App) (l : List Effect) (w : World) :
    { l.foldl shown a with world := w } = l.foldl shown ({ a with world := w } : App) := by
  induction l generalizing a with
  | nil => rfl
  | cons o l ih =>
    have hfirst := shown_withWorld a o w
    rw [List.foldl_cons, List.foldl_cons, ← hfirst]
    exact ih (a.shown o)

end App

/-! ## Touches that are answered in full -/

section Settled

variable {serve : World → (r : Request) → r.Response → World → Prop}
  {Ok : Busy → Busy.Move × List Effect → Prop} {a a' : App} {i : Interaction} {l : List Effect}

/-- The last touch is answered. -/
theorem step_answer_last {ts : List Taken} {x : Taken} {r : Request} {callback : r.Response → Prog}
    {pre post : List (Call Device Frame Effect Request.Response)} {response : r.Response} {w : World} {d : Loop}
    (hp : x.pending = pre ++ ⟨r, callback⟩ :: post) (hs : serve a.world r response w)
    (hd : (callback response).exec ⟨w, x.heap, pre ++ post, x.out⟩ = d) (ho : d.out = x.out ++ l)
    (hl : App.Sees { a with world := d.state } l a') :
    Busy.Step serve ⟨a, ts ++ [x]⟩ (.answer ts.length r response, l)
      ⟨a', ts ++ [⟨d.waiting, x.app, x.touch⟩]⟩ := by
  have hlast : (ts ++ [x])[ts.length]? = some x := by simp
  have hset : ∀ y : Taken, (ts ++ [x]).set ts.length y = ts ++ [y] := by simp
  have hstep := Busy.Step.answer (s := ⟨a, ts ++ [x]⟩) hlast hp hs hd ho hl
  rwa [hset] at hstep

variable (Ok) in
/-- A touch that is answered in full is a run of its own. -/
theorem history_of_step (h : App.Step (fun _ => serve) a (i, l) a') (ts : List Taken)
    (hanswer : ∀ s r response l, (s.taken[ts.length]?).map Taken.touch = some i →
      Ok s (.answer ts.length r response, l)) :
    ∃ (x : Taken) (l' : List Effect) (s : Busy), x.pending = [] ∧ x.out = l ∧ x.app = a ∧
      Busy.Step serve ⟨a, ts⟩ (.touch i, l') s ∧ History (Busy.Step serve) Ok s ⟨a', ts ++ [x]⟩ := by
  obtain ⟨b, p, w', hpress, ⟨h', hsettles⟩, rfl⟩ := h
  dsimp only at hpress hsettles
  obtain ⟨d, hd⟩ : ∃ d, p.exec (.fresh _ b.world) = d := ⟨_, rfl⟩
  have htouch : Busy.Step serve ⟨a, ts⟩ (.touch i, d.out) _ :=
    .touch hpress hd (App.sees_foldl_shown { b with world := d.state } d.out)
  -- the app and the touch when its call has come to `c`
  have hruns : ∀ {c : Loop}, Runs serve d c → History (Busy.Step serve) Ok
      { app := d.out.foldl App.shown { b with world := d.state }, taken := ts ++ [⟨d.waiting, a, i⟩] }
      { app := c.out.foldl App.shown { b with world := c.state }, taken := ts ++ [⟨c.waiting, a, i⟩] } := by
    intro c hc
    induction hc with
    | refl => exact .refl
    | @tail c d _ hd ih =>
      cases hd with
      | @answer pre post r callback response s hp hs =>
        obtain ⟨l', hl'⟩ := exec_out (callback response) { c with state := s, pending := pre ++ post }
        have hsees := App.sees_foldl_shown { c.out.foldl App.shown { b with world := c.state } with
          world := ((callback response).exec { c with state := s, pending := pre ++ post }).state } l'
        have hworld : serve (c.out.foldl App.shown { b with world := c.state }).world r response s := by
          rwa [App.foldl_shown_world]
        have hstep : Busy.Step serve ⟨_, ts ++ [⟨c.waiting, a, i⟩]⟩ (.answer ts.length r response, l') _ :=
          step_answer_last hp hworld rfl hl'.symm hsees
        have hnext := ih.tail (hanswer _ r response l' (by simp)) hstep
        rw [App.foldl_shown_withWorld, ← List.foldl_append, hl'] at hnext
        exact hnext
  exact ⟨⟨⟨h', [], l⟩, a, i⟩, _, _, rfl, rfl, rfl, htouch, hruns (hd ▸ hsettles.1)⟩

theorem step_kept (Kept : Server → Server → Prop) {e : Interaction × List Effect}
    (h : App.Step (fun _ => Answers) a e a') : App.Step (fun _ => AnswersOrKept Kept) a e a' := by
  obtain ⟨b, p, w', hpress, hy, rfl⟩ := h
  exact ⟨b, p, w', hpress, hy.mono fun _ _ _ _ => .inl, rfl⟩

variable (Ok) in
/-- So are the runs in which every touch is. -/
theorem history_of_history {OkApp : App → Interaction × List Effect → Prop} {a₀ : App}
    (h : History (App.Step fun _ => serve) OkApp a₀ a)
    (htouch : ∀ a ts i l l', OkApp a (i, l) → Ok ⟨a, ts⟩ (.touch i, l'))
    (hanswer : ∀ a s j i r response l l', OkApp a (i, l) → (s.taken[j]?).map Taken.touch = some i →
      Ok s (.answer j r response, l')) :
    ∃ ts : List Taken, (∀ x ∈ ts, x.pending = []) ∧ History (Busy.Step serve) Ok a₀.idle ⟨a, ts⟩ := by
  induction h with
  | refl => exact ⟨[], by simp, .refl⟩
  | @tail a a' e _ hok hs ih =>
    obtain ⟨ts, hts, hrun⟩ := ih
    obtain ⟨x, l', s, hx, -, -, htaken, hanswered⟩ := history_of_step Ok hs ts
      fun s r response l ht => hanswer a s ts.length e.1 r response e.2 l hok ht
    refine ⟨ts ++ [x], fun y hy => ?_, (hrun.tail (htouch a ts e.1 e.2 l' hok) htaken).append hanswered⟩
    rcases List.mem_append.mp hy with hy | hy
    · exact hts y hy
    · exact List.mem_singleton.mp hy ▸ hx

end Settled

end Pledge
