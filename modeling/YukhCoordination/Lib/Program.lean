import Mathlib.Data.List.Induction
import Mathlib.Logic.Function.Basic
import Mathlib.Logic.Relation

/-!
# Programs over a port, and what holds across their interleavings

A `Program` makes atomic requests of a shared state, and a `Pool` interleaves any number of them.
`RelyGuarantee` is the proof rule, `Program.Exec` a run alone.
-/

namespace Interleave

/-- The atomic requests a program can make, and the type of the answer to each. -/
structure Port where
  Request : Type
  Answer : Request → Type

/-- A program over a port: it has returned, or it waits for the answer to a request. -/
inductive Program (P : Port) (α : Type) where
  | done (a : α)
  | call (r : P.Request) (k : P.Answer r → Program P α)

/-- What a request by thread `i` may do: the answers it may give and the states it may lead to. -/
abbrev Sem (P : Port) (ι σ : Type) := ι → (r : P.Request) → σ → P.Answer r → σ → Prop

variable {P : Port} {α β C ι σ : Type}

variable {r : P.Request} {a : α} {s t : σ} {q q' : Program P α} {i : ι} {c : C}

namespace Program

/-- Sequential composition. -/
def bind : Program P α → (α → Program P β) → Program P β
  | .done a, f => f a
  | .call r k, f => .call r fun ans => (k ans).bind f

instance : Monad (Program P) where
  pure := .done
  bind := .bind

/-- The program that makes one request and returns its answer. -/
def ask (r : P.Request) : Program P (P.Answer r) := .call r .done

@[simp] theorem pure_eq (a : α) : (pure a : Program P α) = .done a := rfl

@[simp] theorem done_bind (a : α) (f : α → Program P β) : (Program.done a >>= f) = f a := rfl

@[simp] theorem call_bind (r : P.Request) (k : P.Answer r → Program P α) (f : α → Program P β) :
    (Program.call r k >>= f) = .call r fun ans => k ans >>= f := rfl

@[simp] theorem ask_bind (r : P.Request) (f : P.Answer r → Program P β) :
    (ask r >>= f) = .call r f := rfl

/-- Go on with a value, or return the error. -/
def onOk {ε : Type} (x : Except ε α) (f : α → Program P (Except ε β)) : Program P (Except ε β) :=
  match x with
  | .ok a => f a
  | .error e => .done (.error e)

@[simp] theorem onOk_ok {ε : Type} (a : α) (f : α → Program P (Except ε β)) :
    onOk (.ok a) f = f a := rfl

/-- A program over one port as a program over a port that has its requests. -/
def lift {Q : Port} (f : P.Request → Q.Request) (g : ∀ r, Q.Answer (f r) → P.Answer r) :
    Program P α → Program Q α
  | .done a => .done a
  | .call r k => .call (f r) fun ans => (k (g r ans)).lift f g

/-! ## Running one program alone -/

/-- `p.Exec sem s a t`: run alone from `s`, the program can return `a` and leave the state `t`. -/
inductive Exec (sem : (r : P.Request) → σ → P.Answer r → σ → Prop) : Program P α → σ → α → σ → Prop
  | done {a : α} {s : σ} : Exec sem (.done a) s a s
  | call {r : P.Request} {k : P.Answer r → Program P α} {s t u : σ} {ans : P.Answer r} {a : α} :
      sem r s ans t → Exec sem (k ans) t a u → Exec sem (.call r k) s a u

variable {f : β → Program P α}

section
variable {sem : (r : P.Request) → σ → P.Answer r → σ → Prop}

variable {u : σ}

theorem exec_call {k : P.Answer r → Program P α} :
    Exec sem (.call r k) s a u ↔ ∃ ans t, sem r s ans t ∧ Exec sem (k ans) t a u := by
  constructor
  · intro h
    cases h with
    | call hs hk => exact ⟨_, _, hs, hk⟩
  · rintro ⟨ans, t, hs, hk⟩
    exact .call hs hk

theorem exec_ask_bind {f : P.Answer r → Program P α} :
    Exec sem (ask r >>= f) s a u ↔ ∃ ans t, sem r s ans t ∧ Exec sem (f ans) t a u := exec_call

/-- A composed program runs its parts one after the other. -/
theorem Exec.bind {p : Program P β} {b : β} (hp : Exec sem p s b t) (hf : Exec sem (f b) t a u) :
    Exec sem (p >>= f) s a u := by
  induction hp with
  | done => exact hf
  | call hs _ ih => exact .call hs (ih hf)

/-- Run a program alone, where each request has one outcome. -/
def eval (handle : (r : P.Request) → σ → P.Answer r × σ) : Program P α → σ → α × σ
  | .done a, s => (a, s)
  | .call r k, s => (k (handle r s).1).eval handle (handle r s).2

theorem exec_eval {handle : (r : P.Request) → σ → P.Answer r × σ}
    (h : ∀ r s, sem r s (handle r s).1 (handle r s).2) (p : Program P α) (s : σ) :
    Exec sem p s (p.eval handle s).1 (p.eval handle s).2 := by
  induction p generalizing s with
  | done a => exact .done
  | call r k ih => exact .call (h r s) (ih _ _)

theorem eval_bind {handle : (r : P.Request) → σ → P.Answer r × σ} {p : Program P β} :
    (p >>= f).eval handle s = (f (p.eval handle s).1).eval handle (p.eval handle s).2 := by
  induction p generalizing s with
  | done b => rfl
  | call r k ih => exact ih _

theorem Exec.mono {sem' : (r : P.Request) → σ → P.Answer r → σ → Prop}
    (h : ∀ r s ans t, sem r s ans t → sem' r s ans t) {p : Program P α}
    (hp : Exec sem p s a t) : Exec sem' p s a t := by
  induction hp with
  | done => exact .done
  | call hs _ ih => exact .call (h _ _ _ _ hs) ih

/-- `p.Leads sem s q t`: run alone from `s`, the program can come to `q` and leave the state `t`. -/
inductive Leads (sem : (r : P.Request) → σ → P.Answer r → σ → Prop) :
    Program P α → σ → Program P α → σ → Prop
  | refl {p : Program P α} {s : σ} : Leads sem p s p s
  | call {r : P.Request} {k : P.Answer r → Program P α} {s t u : σ} {ans : P.Answer r}
      {q : Program P α} : sem r s ans t → Leads sem (k ans) t q u → Leads sem (.call r k) s q u

theorem Leads.ask_bind {f : P.Answer r → Program P α} {ans : P.Answer r} (hs : sem r s ans t)
    (h : Leads sem (f ans) t q u) : Leads sem (ask r >>= f) s q u := .call hs h

theorem Leads.bind {p q : Program P β} (h : Leads sem p s q t) (f : β → Program P α) :
    Leads sem (p >>= f) s (q >>= f) t := by
  induction h with
  | refl => exact .refl
  | call hs _ ih => exact .call hs ih

theorem Leads.trans {p : Program P α} (h : Leads sem p s q t) (h' : Leads sem q t q' u) :
    Leads sem p s q' u := by
  induction h with
  | refl => exact h'
  | call hs _ ih => exact .call hs (ih h')

theorem Exec.leads {p : Program P α} (h : Exec sem p s a t) : Leads sem p s (.done a) t := by
  induction h with
  | done => exact .refl
  | call hs _ ih => exact .call hs ih

/-- Make some requests of a program, up to one that `handle` does not answer. -/
def advance (handle : (r : P.Request) → σ → Option (P.Answer r × σ)) :
    Nat → Program P α → σ → Program P α × σ
  | n + 1, .call r k, s =>
    match handle r s with
    | some (ans, t) => (k ans).advance handle n t
    | none => (.call r k, s)
  | _, p, s => (p, s)

theorem leads_advance {handle : (r : P.Request) → σ → Option (P.Answer r × σ)}
    (h : ∀ r s ans t, handle r s = some (ans, t) → sem r s ans t) (n : Nat) (p : Program P α)
    (s : σ) : Leads sem p s (p.advance handle n s).1 (p.advance handle n s).2 := by
  induction n generalizing p s with
  | zero => exact .refl
  | succ n ih =>
    cases p with
    | done a => exact .refl
    | call r k =>
      unfold advance
      split
      · next ans t hans => exact .call (h _ _ _ _ hans) (ih _ _)
      · exact .refl

end

/-! ## Following one program among others -/

/-- `p.Meets sem inv rely guar post s`: from `s`, whatever the others do between the requests of
`p` within `rely`, each request keeps `inv` and stays within `guar`, and `p` returns a value that
`post` allows in the state it returns in. -/
def Meets (sem : (r : P.Request) → σ → P.Answer r → σ → Prop) (inv : σ → Prop)
    (rely guar : σ → σ → Prop) (post : α → σ → Prop) : Program P α → σ → Prop
  | .done a, s => post a s
  | .call r k, s => ∀ t, rely s t → inv t → ∀ ans u, sem r t ans u →
      inv u ∧ guar t u ∧ Meets sem inv rely guar post (k ans) u

section
variable {sem : (r : P.Request) → σ → P.Answer r → σ → Prop} {inv : σ → Prop}
  {rely guar : σ → σ → Prop} {post : α → σ → Prop}

@[simp] theorem meets_done : (Program.done a).Meets sem inv rely guar post s ↔ post a s := Iff.rfl

theorem meets_call {k : P.Answer r → Program P α} :
    (Program.call r k).Meets sem inv rely guar post s ↔
      ∀ t, rely s t → inv t → ∀ ans u, sem r t ans u →
        inv u ∧ guar t u ∧ (k ans).Meets sem inv rely guar post u := Iff.rfl

theorem meets_ask_bind {f : P.Answer r → Program P α} :
    (ask r >>= f).Meets sem inv rely guar post s ↔ ∀ t, rely s t → inv t → ∀ ans u, sem r t ans u →
        inv u ∧ guar t u ∧ (f ans).Meets sem inv rely guar post u := Iff.rfl

/-- A composed program meets its specification when its first part meets the one that asks the
rest to meet it. -/
theorem meets_bind {p : Program P β} : (p >>= f).Meets sem inv rely guar post s ↔
      p.Meets sem inv rely guar (fun b t => (f b).Meets sem inv rely guar post t) s := by
  induction p generalizing s with
  | done b => exact Iff.rfl
  | call r k ih =>
    rw [call_bind, meets_call, meets_call]
    constructor
    · intro h t ht hi ans u hu
      obtain ⟨h1, h2, h3⟩ := h t ht hi ans u hu
      exact ⟨h1, h2, (ih ans).1 h3⟩
    · intro h t ht hi ans u hu
      obtain ⟨h1, h2, h3⟩ := h t ht hi ans u hu
      exact ⟨h1, h2, (ih ans).2 h3⟩

theorem Meets.mono_post {post' : α → σ → Prop} (hp : ∀ a s, post a s → post' a s) {p : Program P α}
    (h : p.Meets sem inv rely guar post s) : p.Meets sem inv rely guar post' s := by
  induction p generalizing s with
  | done a => exact hp a s h
  | call r k ih =>
    intro t ht hi ans u hu
    obtain ⟨h1, h2, h3⟩ := h t ht hi ans u hu
    exact ⟨h1, h2, ih ans h3⟩

theorem Meets.mono_guar {guar' : σ → σ → Prop} (hg : ∀ t u, guar t u → guar' t u) {p : Program P α}
    (h : p.Meets sem inv rely guar post s) : p.Meets sem inv rely guar' post s := by
  induction p generalizing s with
  | done a => exact h
  | call r k ih =>
    intro t ht hi ans u hu
    obtain ⟨h1, h2, h3⟩ := h t ht hi ans u hu
    exact ⟨h1, hg t u h2, ih ans h3⟩

/-- A guarantee that every request gives need not be proved of the program. -/
theorem Meets.guar_of_sem (h : ∀ r s ans t, sem r s ans t → guar s t) {p : Program P α}
    (hp : p.Meets sem inv rely (fun _ _ => True) post s) : p.Meets sem inv rely guar post s := by
  induction p generalizing s with
  | done a => exact hp
  | call r k ih =>
    intro t ht hinv ans u hs
    obtain ⟨hu, -, hk⟩ := hp t ht hinv ans u hs
    exact ⟨hu, h r t ans u hs, ih ans hk⟩

/-- A program that starts in the invariant returns in it. -/
theorem Meets.and_inv {p : Program P α} (hs : inv s) (h : p.Meets sem inv rely guar post s) :
    p.Meets sem inv rely guar (fun a t => inv t ∧ post a t) s := by
  induction p generalizing s with
  | done a => exact ⟨hs, h⟩
  | call r k ih =>
    intro t ht hi ans u hu
    obtain ⟨h1, h2, h3⟩ := h t ht hi ans u hu
    exact ⟨h1, h2, ih ans h1 h3⟩

/-- A program whose requests stay within the rely returns within the rely of the state it starts
in. -/
theorem Meets.and_rely (hrefl : ∀ s, rely s s) (htrans : ∀ s t u, rely s t → rely t u → rely s u)
    (hguar : ∀ t u, guar t u → rely t u) {p : Program P α} (h : p.Meets sem inv rely guar post s) :
    p.Meets sem inv rely guar (fun a t => rely s t ∧ post a t) s := by
  suffices ∀ s₀, rely s₀ s → p.Meets sem inv rely guar (fun a t => rely s₀ t ∧ post a t) s from
    this s (hrefl s)
  induction p generalizing s with
  | done a => exact fun s₀ hs => ⟨hs, h⟩
  | call r k ih =>
    intro s₀ hs t ht hi ans u hu
    obtain ⟨h1, h2, h3⟩ := h t ht hi ans u hu
    exact ⟨h1, h2, ih ans h3 s₀ (htrans _ _ _ (htrans _ _ _ hs ht) (hguar _ _ h2))⟩

/-- The rule of composition: the rest starts in the invariant and in what the first part ensures. -/
theorem Meets.bind {p : Program P β} {mid : β → σ → Prop} (hs : inv s)
    (hp : p.Meets sem inv rely guar mid s)
    (hf : ∀ b t, inv t → mid b t → (f b).Meets sem inv rely guar post t) :
    (p >>= f).Meets sem inv rely guar post s :=
  meets_bind.2 ((hp.and_inv hs).mono_post fun b t ht => hf b t ht.1 ht.2)

theorem Meets.onOk {ε : Type} {x : Except ε β} {f : β → Program P (Except ε α)}
    {post : Except ε α → σ → Prop} (hok : ∀ b, x = .ok b → (f b).Meets sem inv rely guar post s)
    (herror : ∀ e, post (.error e) s) : (Program.onOk x f).Meets sem inv rely guar post s := by
  cases x with
  | ok b => exact hok b rfl
  | error e => exact herror e

/-- Run alone, a program that meets its specification keeps the invariant and goes on meeting it. -/
theorem Meets.leads (hrefl : ∀ s, rely s s) {p : Program P α} (h : p.Meets sem inv rely guar post s)
    (hs : inv s) (hl : Leads sem p s q t) : inv t ∧ q.Meets sem inv rely guar post t := by
  induction hl with
  | refl => exact ⟨hs, h⟩
  | call hsem _ ih =>
    obtain ⟨h1, -, h3⟩ := h _ (hrefl _) hs _ _ hsem
    exact ih h3 h1

/-- Run alone, a program that meets its specification returns what the postcondition allows. -/
theorem Meets.exec (hrefl : ∀ s, rely s s) {p : Program P α} {a : α} {s t : σ}
    (h : p.Meets sem inv rely guar post s) (hs : inv s) (hx : Exec sem p s a t) : post a t :=
  (h.leads hrefl hs hx.leads).2

/-- Every request the program can make, whatever answers it gets, is one of `ok`. -/
def Only (ok : P.Request → Prop) : Program P α → Prop
  | .done _ => True
  | .call r k => ok r ∧ ∀ ans, (k ans).Only ok

@[simp] theorem only_done {ok : P.Request → Prop} : (Program.done a).Only ok := trivial

@[simp] theorem only_call {ok : P.Request → Prop} {k : P.Answer r → Program P α} :
    (Program.call r k).Only ok ↔ ok r ∧ ∀ ans, (k ans).Only ok := Iff.rfl

theorem only_ask_bind {ok : P.Request → Prop} {f : P.Answer r → Program P α} :
    (ask r >>= f).Only ok ↔ ok r ∧ ∀ ans, (f ans).Only ok := Iff.rfl

theorem Only.mono {ok ok' : P.Request → Prop} (h : ∀ r, ok r → ok' r) {p : Program P α}
    (hp : p.Only ok) : p.Only ok' := by
  induction p with
  | done a => trivial
  | call r k ih => exact ⟨h r hp.1, fun ans => ih ans (hp.2 ans)⟩

theorem only_true (p : Program P α) : p.Only fun _ => True := by
  induction p with
  | done a => trivial
  | call r k ih => exact ⟨trivial, ih⟩

theorem Only.bind {ok : P.Request → Prop} {p : Program P β} (hp : p.Only ok)
    (hf : ∀ b, (f b).Only ok) : (p >>= f).Only ok := by
  induction p with
  | done b => exact hf b
  | call r k ih => exact ⟨hp.1, fun ans => ih ans (hp.2 ans)⟩

theorem Only.onOk {ok : P.Request → Prop} {ε : Type} {x : Except ε β}
    {f : β → Program P (Except ε α)} (h : ∀ b, x = .ok b → (f b).Only ok) :
    (Program.onOk x f).Only ok := by
  cases x with
  | ok b => exact h b rfl
  | error e => trivial

/-- A program whose requests all keep `inv` and `guar` meets every specification that its returned
values cannot break. -/
theorem Only.meets {ok : P.Request → Prop}
    (hok : ∀ r t ans u, ok r → inv t → sem r t ans u → inv u ∧ guar t u) (hpost : ∀ a s, post a s)
    {p : Program P α} (hp : p.Only ok) (s : σ) : p.Meets sem inv rely guar post s := by
  induction p generalizing s with
  | done a => exact hpost a s
  | call r k ih =>
    intro t _ hi ans u hu
    obtain ⟨h1, h2⟩ := hok r t ans u hp.1 hi hu
    exact ⟨h1, h2, ih ans (hp.2 ans) u⟩

/-- `p.Heeds allows ok post`: where every request is given an answer that `allows` admits, each one
is made with a rest of the program that `ok` allows, and the program returns a value of `post`. -/
def Heeds (allows : (r : P.Request) → P.Answer r → Prop)
    (ok : (r : P.Request) → (P.Answer r → Program P α) → Prop) (post : α → Prop) :
    Program P α → Prop
  | .done a => post a
  | .call r k => ok r k ∧ ∀ ans, allows r ans → (k ans).Heeds allows ok post

section
variable {allows : (r : P.Request) → P.Answer r → Prop} {first : P.Request → Prop}
  {ok : (r : P.Request) → (P.Answer r → Program P α) → Prop} {post : α → Prop}

/-- A part of the program whose requests `ok` allows whatever follows them. -/
theorem Heeds.bind {p : Program P β} {mid : β → Prop} (hp : p.Heeds allows (fun r _ => first r) mid)
    (hok : ∀ r k, first r → ok r k) (hf : ∀ b, mid b → (f b).Heeds allows ok post) :
    (p >>= f).Heeds allows ok post := by
  induction p with
  | done b => exact hf b hp
  | call r k ih => exact ⟨hok r _ hp.1, fun ans ha => ih ans (hp.2 ans ha)⟩

theorem Heeds.mono {allows' : (r : P.Request) → P.Answer r → Prop} {post' : α → Prop}
    (hallows : ∀ r ans, allows' r ans → allows r ans) (hpost : ∀ a, post a → post' a)
    {p : Program P α} (hp : p.Heeds allows ok post) : p.Heeds allows' ok post' := by
  induction p with
  | done a => exact hpost a hp
  | call r k ih => exact ⟨hp.1, fun ans ha => ih ans (hp.2 ans (hallows r ans ha))⟩

theorem Only.heeds {p : Program P α} (hp : p.Only first) :
    p.Heeds allows (fun r _ => first r) fun _ => True := by
  induction p with
  | done a => trivial
  | call r k ih => exact ⟨hp.1, fun ans _ => ih ans (hp.2 ans)⟩

theorem Heeds.map {ok' : (r : P.Request) → (P.Answer r → Program P β) → Prop} {g : α → β}
    {post' : β → Prop} (hok : ∀ r k, ok r k → ok' r fun ans => k ans >>= fun a => pure (g a))
    (hpost : ∀ a, post a → post' (g a)) {p : Program P α} (hp : p.Heeds allows ok post) :
    (p >>= fun a => (pure (g a) : Program P β)).Heeds allows ok' post' := by
  induction p with
  | done a => exact hpost a hp
  | call r k ih => exact ⟨hok r k hp.1, fun ans ha => ih ans (hp.2 ans ha)⟩

end

/-- `p.Asks sem inv rely ok s`: from `s`, whatever the others do between the requests of `p` within
`rely`, each request is made in a state that `ok` allows it in. -/
def Asks (sem : (r : P.Request) → σ → P.Answer r → σ → Prop) (inv : σ → Prop)
    (rely : σ → σ → Prop) (ok : P.Request → σ → Prop) : Program P α → σ → Prop
  | .done _, _ => True
  | .call r k, s => ∀ t, rely s t → inv t → ok r t ∧ ∀ ans u, sem r t ans u →
      Asks sem inv rely ok (k ans) u

variable {ok : P.Request → σ → Prop}

theorem Only.asks {only : P.Request → Prop} (hok : ∀ r t, only r → ok r t) {p : Program P α}
    (hp : p.Only only) (s : σ) : p.Asks sem inv rely ok s := by
  induction p generalizing s with
  | done a => trivial
  | call r k ih => exact fun t _ _ => ⟨hok r t hp.1, fun ans u _ => ih ans (hp.2 ans) u⟩

theorem Asks.bind {p : Program P β} {mid : β → σ → Prop} (hp : p.Asks sem inv rely ok s)
    (hm : p.Meets sem inv rely guar mid s) (hf : ∀ b t, mid b t → (f b).Asks sem inv rely ok t) :
    (p >>= f).Asks sem inv rely ok s := by
  induction p generalizing s with
  | done b => exact hf b s hm
  | call r k ih =>
    intro t ht hi
    refine ⟨(hp t ht hi).1, fun ans u hu => ?_⟩
    exact ih ans ((hp t ht hi).2 ans u hu) (hm t ht hi ans u hu).2.2

theorem Asks.onOk {ε : Type} {x : Except ε β} {f : β → Program P (Except ε α)}
    (h : ∀ b, x = .ok b → (f b).Asks sem inv rely ok s) :
    (Program.onOk x f).Asks sem inv rely ok s := by
  cases x with
  | ok b => exact h b rfl
  | error e => trivial

end

end Program

/-! ## Pools of threads -/

section
variable [DecidableEq ι] {f : ι → Option α} {j : ι} {b : α}

theorem update_eq_some :
    Function.update f i (some a) j = some b ↔ j = i ∧ a = b ∨ j ≠ i ∧ f j = some b := by
  by_cases h : j = i <;> simp [h]

theorem update_eq_none : Function.update f i (some a) j = none ↔ j ≠ i ∧ f j = none := by
  by_cases h : j = i <;> simp [h]

end

/-- Threads over one shared state. A thread that has been started carries the call it executes and
what is left of that call's program. -/
structure Pool (P : Port) (ι C α σ : Type) where
  shared : σ
  thread : ι → Option (C × Program P α)

variable {p : Pool P ι C α σ}

namespace Pool

/-- The pool that has started no thread. -/
def init (s : σ) : Pool P ι C α σ := ⟨s, fun _ => none⟩

/-- Thread `i` has returned `a` from the call `c`. -/
def Returned (p : Pool P ι C α σ) (i : ι) (c : C) (a : α) : Prop := p.thread i = some (c, .done a)

variable [DecidableEq ι]

/-- One step of a pool: a new call is started, a thread gets the answer to its request, or the
environment changes the shared state. -/
inductive Step (sem : Sem P ι σ) (env : σ → σ → Prop) (body : C → Program P α) :
    Pool P ι C α σ → Pool P ι C α σ → Prop
  | start {p : Pool P ι C α σ} (i : ι) (c : C) : p.thread i = none →
      Step sem env body p ⟨p.shared, Function.update p.thread i (some (c, body c))⟩
  | run {p : Pool P ι C α σ} (i : ι) {c : C} {r : P.Request} {k : P.Answer r → Program P α}
      {ans : P.Answer r} {s : σ} : p.thread i = some (c, .call r k) → sem i r p.shared ans s →
      Step sem env body p ⟨s, Function.update p.thread i (some (c, k ans))⟩
  | env {p : Pool P ι C α σ} {s : σ} : env p.shared s → Step sem env body p ⟨s, p.thread⟩

/-- The pools that a run from `s₀` reaches. -/
def Reach (sem : Sem P ι σ) (env : σ → σ → Prop) (body : C → Program P α) (s₀ : σ)
    (p : Pool P ι C α σ) : Prop :=
  Relation.ReflTransGen (Step sem env body) (init s₀) p

section
variable {sem : Sem P ι σ} {env : σ → σ → Prop} {body : C → Program P α} {s₀ : σ}

/-- A step leaves the shared state, makes a request of it, or is one of the environment. -/
theorem Step.shared {q : Pool P ι C α σ} (h : Step sem env body p q) :
    q.shared = p.shared ∨ (∃ i r ans, sem i r p.shared ans q.shared) ∨ env p.shared q.shared := by
  cases h with
  | start => exact .inl rfl
  | run i _ hs => exact .inr (.inl ⟨i, _, _, hs⟩)
  | env he => exact .inr (.inr he)

/-- Allowing more answers allows more steps. -/
theorem Step.mono {sem' : Sem P ι σ} (h : ∀ i r s ans t, sem i r s ans t → sem' i r s ans t)
    {q : Pool P ι C α σ} (hs : Step sem env body p q) : Step sem' env body p q := by
  cases hs with
  | start i c hi => exact .start i c hi
  | run i hi hs => exact .run i hi (h _ _ _ _ _ hs)
  | env he => exact .env he

theorem Reach.mono {sem' : Sem P ι σ} (h : ∀ i r s ans t, sem i r s ans t → sem' i r s ans t)
    (hp : Reach sem env body s₀ p) : Reach sem' env body s₀ p :=
  Relation.ReflTransGen.mono (fun _ _ => Step.mono h) _ _ hp

/-- A started thread can go on with its call before anyone else moves. -/
theorem Step.leads {f : ι → Option (C × Program P α)} (h : q.Leads (sem i) s q' t) :
    Relation.ReflTransGen (Step sem env body) ⟨s, Function.update f i (some (c, q))⟩
      ⟨t, Function.update f i (some (c, q'))⟩ := by
  induction h with
  | refl => exact .refl
  | @call r k s t u ans q hs _ ih =>
    have hstep : Step sem env body ⟨s, Function.update f i (some (c, .call r k))⟩
        ⟨t, Function.update (Function.update f i (some (c, .call r k))) i (some (c, k ans))⟩ :=
      .run i (Function.update_self _ _ _) hs
    rw [Function.update_idem] at hstep
    exact .head hstep ih

/-- A thread in the middle of its call can go on with it before anyone else moves. -/
theorem Step.resume (hi : p.thread i = some (c, q)) (h : q.Leads (sem i) p.shared q' t) :
    Relation.ReflTransGen (Step sem env body) p ⟨t, Function.update p.thread i (some (c, q'))⟩ := by
  have hself : Function.update p.thread i (some (c, q)) = p.thread := by
    rw [← hi, Function.update_eq_self]
  have hleads : Relation.ReflTransGen (Step sem env body)
      ⟨p.shared, Function.update p.thread i (some (c, q))⟩ _ := leads h
  rwa [hself] at hleads

/-- A thread not yet started can start its call and go on with it before anyone else moves. -/
theorem Step.begin (hi : p.thread i = none) (h : (body c).Leads (sem i) p.shared q t) :
    Relation.ReflTransGen (Step sem env body) p ⟨t, Function.update p.thread i (some (c, q))⟩ :=
  .head (.start i c hi) (leads h)

/-- A thread not yet started can run its call to the end before anyone else moves. -/
theorem Step.exec (hi : p.thread i = none) (hx : (body c).Exec (sem i) p.shared a t) :
    Relation.ReflTransGen (Step sem env body) p
      ⟨t, Function.update p.thread i (some (c, .done a))⟩ :=
  begin hi hx.leads

theorem Reach.exec (hp : Reach sem env body s₀ p) {i : ι} {c : C} (hi : p.thread i = none) {a : α}
    {t : σ} (hx : (body c).Exec (sem i) p.shared a t) :
    Reach sem env body s₀ ⟨t, Function.update p.thread i (some (c, .done a))⟩ :=
  hp.trans (Step.exec hi hx)

/-- Calls that run to the end one after the other: what they return and the state they leave. -/
def evals (handle : (r : P.Request) → σ → P.Answer r × σ) (body : C → Program P α) (calls : List C)
    (s : σ) : List α × σ :=
  calls.foldl (fun run c =>
    let result := (body c).eval handle run.2
    (run.1 ++ [result.1], result.2)) ([], s)

/-- The threads `0`, `1`, … can run their calls to the end, one after the other. -/
theorem Reach.evals {sem : Sem P Nat σ} {handle : (r : P.Request) → σ → P.Answer r × σ}
    (h : ∀ i r s, sem i r s (handle r s).1 (handle r s).2) (calls : List C) :
    (evals handle body calls s₀).1.length = calls.length ∧
      Reach sem env body s₀ ⟨(evals handle body calls s₀).2, fun i =>
        ((calls.zip (evals handle body calls s₀).1)[i]?).map fun r => (r.1, .done r.2)⟩ := by
  induction calls using List.reverseRecOn with
  | nil => exact ⟨rfl, .refl⟩
  | append_singleton calls c ih =>
    have hevals : Pool.evals handle body (calls ++ [c]) s₀ =
        (fun run => (run.1 ++ [((body c).eval handle run.2).1], ((body c).eval handle run.2).2))
          (Pool.evals handle body calls s₀) := List.foldl_append
    rw [hevals]
    generalize Pool.evals handle body calls s₀ = run at ih ⊢
    obtain ⟨hlength, hp⟩ := ih
    refine ⟨by simp [hlength], ?_⟩
    convert hp.exec (i := calls.length) (c := c) (by simp [hlength])
      (Program.exec_eval (h _) (body c) _) using 2
    funext i
    by_cases hi : i = calls.length
    · subst hi
      simp [List.zip_append, hlength]
    · rw [Function.update_of_ne hi, List.zip_append hlength.symm, List.getElem?_append]
      split
      · rfl
      · simp_all
        omega

/-- A thread starts its call, or goes on with it for some requests. -/
def move (handle : (r : P.Request) → σ → Option (P.Answer r × σ)) (body : C → Program P α)
    (p : Pool P ι C α σ) (m : ι × (C ⊕ Nat)) : Pool P ι C α σ :=
  match m.2, p.thread m.1 with
  | .inl c, none => ⟨p.shared, Function.update p.thread m.1 (some (c, body c))⟩
  | .inr n, some (c, q) =>
    let result := q.advance handle n p.shared
    ⟨result.2, Function.update p.thread m.1 (some (c, result.1))⟩
  | _, _ => p

section
variable {handle : (r : P.Request) → σ → Option (P.Answer r × σ)}

/-- Moves of the threads are steps of the pool. -/
theorem Reach.moves (h : ∀ i r s ans t, handle r s = some (ans, t) → sem i r s ans t)
    (hp : Reach sem env body s₀ p) (moves : List (ι × (C ⊕ Nat))) :
    Reach sem env body s₀ (moves.foldl (move handle body) p) := by
  induction moves generalizing p with
  | nil => exact hp
  | cons m moves ih =>
    refine ih ?_
    unfold move
    split
    · next hnone => exact hp.tail (.start _ _ hnone)
    · next hthread => exact hp.trans (Step.resume hthread (Program.leads_advance (h _) _ _ _))
    · exact hp

/-- A request that is answered is a step of the pool. -/
theorem Step.move (h : ∀ i r s ans t, handle r s = some (ans, t) → sem i r s ans t)
    {k : P.Answer r → Program P α} (hi : p.thread i = some (c, .call r k))
    (hr : (handle r p.shared).isSome) : Step sem env body p (p.move handle body (i, .inr 1)) := by
  obtain ⟨⟨ans, t⟩, hans⟩ := Option.isSome_iff_exists.1 hr
  simp only [Pool.move, hi, Program.advance, hans]
  exact .run i hi (h _ _ _ _ _ hans)

end

/-- What holds of every call's program and passes to what is left of it after an answer holds of
what is left of every started call. -/
theorem Reach.residual {Q : Program P α → Prop}
    (hQ : ∀ i r (k : P.Answer r → Program P α) s ans t, sem i r s ans t → Q (.call r k) →
      Q (k ans)) (hbody : ∀ c, Q (body c)) (hp : Reach sem env body s₀ p)
    (hi : p.thread i = some (c, q)) : Q q := by
  induction hp generalizing i c q with
  | refl => cases hi
  | tail _ hstep ih =>
    cases hstep with
    | start j d hj =>
      rcases update_eq_some.1 hi with ⟨rfl, rfl, rfl⟩ | ⟨hij, hi⟩
      · exact hbody _
      · exact ih hi
    | run j hj hs =>
      rcases update_eq_some.1 hi with ⟨rfl, rfl, rfl⟩ | ⟨hij, hi⟩
      · exact hQ _ _ _ _ _ _ hs (ih hj)
      · exact ih hi
    | env he => exact ih hi

/-- Where every call makes only requests of `ok`, so does what is left of a started one. -/
theorem Reach.only {ok : P.Request → Prop} (hbody : ∀ c, (body c).Only ok)
    (hp : Reach sem env body s₀ p) (hi : p.thread i = some (c, q)) : q.Only ok :=
  hp.residual (fun _ _ _ _ ans _ _ h => h.2 ans) hbody hi

/-- Where every call heeds `ok`, so does what is left of a started one. -/
theorem Reach.heeds {allows : (r : P.Request) → P.Answer r → Prop}
    {ok : (r : P.Request) → (P.Answer r → Program P α) → Prop} {post : α → Prop}
    (hallows : ∀ i r s ans t, sem i r s ans t → allows r ans)
    (hbody : ∀ c, (body c).Heeds allows ok post) (hp : Reach sem env body s₀ p)
    (hi : p.thread i = some (c, q)) : q.Heeds allows ok post :=
  hp.residual (fun i r _ s ans t hs h => h.2 ans (hallows i r s ans t hs)) hbody hi

variable {I : σ → Prop}

/-- What the requests that are made and the environment keep holds of every reachable shared
state. -/
theorem Reach.invariant_heeds {allows : (r : P.Request) → P.Answer r → Prop}
    {ok : (r : P.Request) → (P.Answer r → Program P α) → Prop} {post : α → Prop}
    (hallows : ∀ i r s ans t, sem i r s ans t → allows r ans)
    (hbody : ∀ c, (body c).Heeds allows ok post) (h₀ : I s₀)
    (hsem : ∀ i r k s ans t, ok r k → I s → sem i r s ans t → I t)
    (henv : ∀ s t, I s → env s t → I t) (hp : Reach sem env body s₀ p) : I p.shared := by
  induction hp with
  | refl => exact h₀
  | tail hp hstep ih =>
    cases hstep with
    | start => exact ih
    | run i hi hs => exact hsem i _ _ _ _ _ (Reach.heeds hallows hbody hp hi).1 ih hs
    | env he => exact henv _ _ ih he

/-- Where every call makes only requests of `ok`, a step leaves the shared state, makes such a
request of it, or is one of the environment. -/
theorem Reach.step_only {ok : P.Request → Prop} (hbody : ∀ c, (body c).Only ok)
    {q : Pool P ι C α σ} (hp : Reach sem env body s₀ p) (hs : Step sem env body p q) :
    q.shared = p.shared ∨ (∃ i r ans, ok r ∧ sem i r p.shared ans q.shared) ∨
      env p.shared q.shared := by
  cases hs with
  | start => exact .inl rfl
  | run i hi hs => exact .inr (.inl ⟨i, _, _, (hp.only hbody hi).1, hs⟩)
  | env he => exact .inr (.inr he)

/-- What the requests of the calls and the environment keep holds of every reachable shared
state. -/
theorem Reach.invariant_only {ok : P.Request → Prop} (hbody : ∀ c, (body c).Only ok) (h₀ : I s₀)
    (hsem : ∀ i r s ans t, ok r → I s → sem i r s ans t → I t) (henv : ∀ s t, I s → env s t → I t)
    (hp : Reach sem env body s₀ p) : I p.shared := by
  induction hp with
  | refl => exact h₀
  | tail hp hstep ih =>
    rcases Reach.step_only hbody hp hstep with heq | ⟨i, r, ans, hr, hs⟩ | he
    · rwa [heq]
    · exact hsem i r _ ans _ hr ih hs
    · exact henv _ _ ih he

/-- What every request and the environment keep holds of every reachable shared state. -/
theorem Reach.invariant (h₀ : I s₀) (hsem : ∀ i r s ans t, I s → sem i r s ans t → I t)
    (henv : ∀ s t, I s → env s t → I t) {p : Pool P ι C α σ} (hp : Reach sem env body s₀ p) :
    I p.shared :=
  Reach.invariant_only (fun c => Program.only_true (body c)) h₀
    (fun i r s ans t _ => hsem i r s ans t) henv hp

end

end Pool

/-! ## The rely–guarantee rule -/

/-- The obligations of a rely–guarantee argument for the threads of a pool. `fresh i` is what holds
of the shared state before thread `i` makes its first request. -/
structure RelyGuarantee [DecidableEq ι] (sem : Sem P ι σ) (env : σ → σ → Prop)
    (body : C → Program P α) where
  inv : σ → Prop
  rely : ι → σ → σ → Prop
  fresh : ι → σ → Prop
  post : ι → C → α → σ → Prop
  rely_refl : ∀ i s, rely i s s
  rely_trans : ∀ i s t u, rely i s t → rely i t u → rely i s u
  env_inv : ∀ s t, inv s → env s t → inv t
  env_rely : ∀ i s t, inv s → env s t → rely i s t
  fresh_stable : ∀ i s t, fresh i s → rely i s t → fresh i t
  post_stable : ∀ i c a s t, inv s → post i c a s → rely i s t → post i c a t
  meets : ∀ i c s, inv s → fresh i s →
    (body c).Meets (sem i) inv (rely i) (fun t u => ∀ j, j ≠ i → rely j t u) (post i c) s

namespace RelyGuarantee

variable [DecidableEq ι] {sem : Sem P ι σ} {env : σ → σ → Prop} {body : C → Program P α}

/-- What the rule keeps along a run: the invariant, freshness of the threads not yet started, and
for each started thread a state from which it meets its specification and which the others have
only changed within the rely. -/
structure Holds (rg : RelyGuarantee sem env body) (p : Pool P ι C α σ) : Prop where
  inv : rg.inv p.shared
  fresh : ∀ i, p.thread i = none → rg.fresh i p.shared
  meets : ∀ i c q, p.thread i = some (c, q) → ∃ s, rg.inv s ∧ rg.rely i s p.shared ∧
    q.Meets (sem i) rg.inv (rg.rely i) (fun t u => ∀ j, j ≠ i → rg.rely j t u) (rg.post i c) s

theorem Holds.step (rg : RelyGuarantee sem env body) {q : Pool P ι C α σ} (h : rg.Holds p)
    (hs : Pool.Step sem env body p q) : rg.Holds q := by
  cases hs with
  | start i c hi =>
    refine ⟨h.inv, fun j hj => ?_, fun j d q hj => ?_⟩
    · obtain ⟨hji, hj⟩ := update_eq_none.1 hj
      exact h.fresh j hj
    · rcases update_eq_some.1 hj with ⟨rfl, rfl, rfl⟩ | ⟨hji, hj⟩
      · exact ⟨p.shared, h.inv, rg.rely_refl j _, rg.meets j c _ h.inv (h.fresh j hi)⟩
      · exact h.meets j d q hj
  | @run i c r k ans s hi hsem =>
    obtain ⟨s₁, -, hr, hm⟩ := h.meets i c _ hi
    obtain ⟨hinv, hguar, hk⟩ := hm p.shared hr h.inv ans s hsem
    refine ⟨hinv, fun j hj => ?_, fun j d q hj => ?_⟩
    · obtain ⟨hji, hj⟩ := update_eq_none.1 hj
      exact rg.fresh_stable j _ _ (h.fresh j hj) (hguar j hji)
    · rcases update_eq_some.1 hj with ⟨rfl, rfl, rfl⟩ | ⟨hji, hj⟩
      · exact ⟨s, hinv, rg.rely_refl j _, hk⟩
      · obtain ⟨s₂, hi₂, hr₂, hm₂⟩ := h.meets j d q hj
        exact ⟨s₂, hi₂, rg.rely_trans j _ _ _ hr₂ (hguar j hji), hm₂⟩
  | env he =>
    refine ⟨rg.env_inv _ _ h.inv he, fun j hj => ?_, fun j d q hj => ?_⟩
    · exact rg.fresh_stable j _ _ (h.fresh j hj) (rg.env_rely j _ _ h.inv he)
    · obtain ⟨s₂, hi₂, hr₂, hm₂⟩ := h.meets j d q hj
      exact ⟨s₂, hi₂, rg.rely_trans j _ _ _ hr₂ (rg.env_rely j _ _ h.inv he), hm₂⟩

/-- A step is within the rely of every thread but the one that takes it. -/
theorem Holds.rely (rg : RelyGuarantee sem env body) {q : Pool P ι C α σ} (h : rg.Holds p)
    (hs : Pool.Step sem env body p q) :
    (∀ j, rg.rely j p.shared q.shared) ∨ ∃ i, ∀ j, j ≠ i → rg.rely j p.shared q.shared := by
  cases hs with
  | start => exact .inl fun j => rg.rely_refl j _
  | @run i c r k ans s hi hsem =>
    obtain ⟨s₁, -, hr, hm⟩ := h.meets i c _ hi
    exact .inr ⟨i, (hm p.shared hr h.inv ans s hsem).2.1⟩
  | env he => exact .inl fun j => rg.env_rely j _ _ h.inv he

variable {s₀ : σ}

/-- **The rely–guarantee rule.** A reachable pool keeps the invariant, the threads not yet started
are still fresh, and every started thread goes on meeting its specification. -/
theorem reach (rg : RelyGuarantee sem env body) (h₀ : rg.inv s₀) (hf : ∀ i, rg.fresh i s₀)
    (hp : Pool.Reach sem env body s₀ p) : rg.Holds p := by
  induction hp with
  | refl => exact ⟨h₀, fun i _ => hf i, fun i c q hi => by simp [Pool.init] at hi⟩
  | tail _ hstep ih => exact ih.step rg hstep

/-- The postcondition holds of every thread that has returned. -/
theorem returned (rg : RelyGuarantee sem env body) (h₀ : rg.inv s₀) (hf : ∀ i, rg.fresh i s₀)
    (hp : Pool.Reach sem env body s₀ p) (hr : p.Returned i c a) : rg.post i c a p.shared := by
  have h := rg.reach h₀ hf hp
  obtain ⟨s, hi, hs, hm⟩ := h.meets i c _ hr
  exact rg.post_stable i c a _ _ hi hm hs

/-- Every started thread goes on asking in the states that are allowed. -/
theorem reach_asks (rg : RelyGuarantee sem env body) {ok : C → P.Request → σ → Prop}
    (hbody : ∀ i c s, rg.inv s → rg.fresh i s → (body c).Asks (sem i) rg.inv (rg.rely i) (ok c) s)
    (h₀ : rg.inv s₀) (hf : ∀ i, rg.fresh i s₀) (hp : Pool.Reach sem env body s₀ p)
    (hi : p.thread i = some (c, q)) :
    ∃ s, rg.rely i s p.shared ∧ q.Asks (sem i) rg.inv (rg.rely i) (ok c) s := by
  induction hp generalizing i c q with
  | refl => cases hi
  | tail hp hstep ih =>
    have h := rg.reach h₀ hf hp
    cases hstep with
    | start j d hj =>
      rcases update_eq_some.1 hi with ⟨rfl, rfl, rfl⟩ | ⟨hij, hi⟩
      · exact ⟨_, rg.rely_refl i _, hbody i _ _ h.inv (h.fresh i hj)⟩
      · exact ih hi
    | @run j d r k ans s hj hsem =>
      rcases update_eq_some.1 hi with ⟨rfl, rfl, rfl⟩ | ⟨hij, hi⟩
      · obtain ⟨s₁, hs₁, hask⟩ := ih hj
        exact ⟨s, rg.rely_refl i _, (hask _ hs₁ h.inv).2 _ _ hsem⟩
      · obtain ⟨s₁, hs₁, hask⟩ := ih hi
        obtain ⟨s₂, -, hs₂, hm⟩ := h.meets j d _ hj
        have hguar := (hm _ hs₂ h.inv ans s hsem).2.1 i hij
        exact ⟨s₁, rg.rely_trans i _ _ _ hs₁ hguar, hask⟩
    | env he =>
      obtain ⟨s₁, hs₁, hask⟩ := ih hi
      exact ⟨s₁, rg.rely_trans i _ _ _ hs₁ (rg.env_rely i _ _ h.inv he), hask⟩

/-- **A thread asks in a state that is allowed**, in every reachable pool. -/
theorem asks (rg : RelyGuarantee sem env body) {ok : C → P.Request → σ → Prop}
    (hbody : ∀ i c s, rg.inv s → rg.fresh i s → (body c).Asks (sem i) rg.inv (rg.rely i) (ok c) s)
    (h₀ : rg.inv s₀) (hf : ∀ i, rg.fresh i s₀) (hp : Pool.Reach sem env body s₀ p)
    {k : P.Answer r → Program P α} (hi : p.thread i = some (c, .call r k)) : ok c r p.shared := by
  obtain ⟨s, hs, hask⟩ := rg.reach_asks hbody h₀ hf hp hi
  exact (hask p.shared hs (rg.reach h₀ hf hp).inv).1

end RelyGuarantee

section
variable [DecidableEq ι] {sem : Sem P ι σ} {env : σ → σ → Prop} {body : C → Program P α} {s₀ : σ}

/-- **Following one thread.** Where every request and the environment keep the invariant and stay
within the rely, a started thread goes on meeting its specification, from a state that the others
have only changed within the rely. -/
theorem Pool.follow {inv : σ → Prop} {rely : σ → σ → Prop} {post : α → σ → Prop}
    (hrefl : ∀ s, rely s s) (htrans : ∀ s t u, rely s t → rely t u → rely s u)
    (hsem : ∀ j r s ans t, inv s → sem j r s ans t → inv t ∧ rely s t)
    (henv : ∀ s t, inv s → env s t → inv t ∧ rely s t) {q : Pool P ι C α σ} (hp : inv p.shared)
    {prog : Program P α} (hi : p.thread i = some (c, prog))
    (hm : prog.Meets (sem i) inv rely (fun _ _ => True) post p.shared)
    (hq : Relation.ReflTransGen (Step sem env body) p q) :
    inv q.shared ∧ ∃ s prog', q.thread i = some (c, prog') ∧ rely s q.shared ∧
      prog'.Meets (sem i) inv rely (fun _ _ => True) post s := by
  induction hq with
  | refl => exact ⟨hp, p.shared, prog, hi, hrefl _, hm⟩
  | tail _ hstep ih =>
    obtain ⟨hinv, s, prog', hthread, hrely, hmeets⟩ := ih
    cases hstep with
    | start j d hj =>
      have hne : i ≠ j := by
        rintro rfl
        rw [hj] at hthread
        cases hthread
      exact ⟨hinv, s, prog', by simp [Function.update_of_ne hne, hthread], hrely, hmeets⟩
    | @run j d r k ans t hj hs =>
      obtain ⟨hinv', hstep⟩ := hsem _ _ _ _ _ hinv hs
      by_cases hij : i = j
      · subst hij
        rw [hthread] at hj
        cases hj
        exact ⟨hinv', t, k ans, Function.update_self _ _ _, hrefl t,
          (hmeets _ hrely hinv ans t hs).2.2⟩
      · exact ⟨hinv', s, prog', by simp [Function.update_of_ne hij, hthread],
          htrans _ _ _ hrely hstep, hmeets⟩
    | env he =>
      obtain ⟨hinv', hstep⟩ := henv _ _ hinv he
      exact ⟨hinv', s, prog', hthread, htrans _ _ _ hrely hstep, hmeets⟩

/-- Where every request and the environment stay within a preorder, and what a call establishes
alone is kept by it, a returned call has established it. -/
theorem Pool.Reach.returned_growing (hp : Pool.Reach sem env body s₀ p) (grows : σ → σ → Prop)
    (hrefl : ∀ s, grows s s) (htrans : ∀ s t u, grows s t → grows t u → grows s u)
    (hsem : ∀ i r s ans t, sem i r s ans t → grows s t) (henv : ∀ s t, env s t → grows s t)
    (post : ι → C → α → σ → Prop) (hstable : ∀ i c a s t, post i c a s → grows s t → post i c a t)
    (hbody : ∀ i c s, (body c).Meets (sem i) (fun _ => True) grows (fun _ _ => True) (post i c) s)
    (hr : p.Returned i c a) : post i c a p.shared := by
  let rg : RelyGuarantee sem env body :=
    { inv := fun _ => True, rely := fun _ => grows, fresh := fun _ _ => True, post
      rely_refl := fun _ => hrefl, rely_trans := fun _ => htrans
      env_inv := fun _ _ _ _ => trivial, env_rely := fun _ s t _ => henv s t
      fresh_stable := fun _ _ _ _ _ => trivial
      post_stable := fun i c a s t _ => hstable i c a s t
      meets := fun i c s _ _ => (hbody i c s).guar_of_sem fun r s ans t h _ _ =>
        hsem i r s ans t h }
  exact rg.returned trivial (fun _ => trivial) hp hr

end

end Interleave
