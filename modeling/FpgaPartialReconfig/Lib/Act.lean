/-
  Sequential code over device registers.

  `Act S α` is code that runs on a state `S` and returns an `α`. A `Device` says what a
  register read answers and how reads and writes move the device; a `Machine` is a device
  state with the log of every access made so far, oldest first. `Device.streams` is the
  device without any behaviour of its own: each register answers its reads from a fixed
  stream of values, so a statement for all streams is a statement for every sequence of
  readings.

  `Spec pre x post` is the specification the proofs compose: it relates the result of `x`,
  the accesses it makes and the device state it ends in. Its rules (`Spec.pure`, `Spec.bind`,
  `Spec.ite`, `Spec.mono`, one rule a register access) follow the shape of the code.
-/
import Mathlib.Logic.Function.Basic
import Mathlib.Data.List.Basic

namespace FpgaPartialReconfig

/-- Code that runs on a state `S` and returns an `α`. -/
def Act (S α : Type) : Type := S → α × S

namespace Act

variable {S α β : Type}

instance : Monad (Act S) where
  pure a := fun s => (a, s)
  bind x f := fun s => f (x s).1 (x s).2

@[simp] theorem pure_apply (a : α) (s : S) : (pure a : Act S α) s = (a, s) := rfl

@[simp] theorem bind_apply (x : Act S α) (f : α → Act S β) (s : S) :
    (x >>= f) s = f (x s).1 (x s).2 := rfl

@[simp] theorem ite_apply (c : Prop) [Decidable c] (x y : Act S α) (s : S) :
    (if c then x else y) s = if c then x s else y s := by
  split <;> rfl

/-! ## Simulation -/

/-- Run from related states, `x` and `y` return the same and end in related states. -/
def Simulates {S T α : Type} (R : S → T → Prop) (x : Act S α) (y : Act T α) : Prop :=
  ∀ s t, R s t → (x s).1 = (y t).1 ∧ R (x s).2 (y t).2

section
variable {S T α β : Type} {R : S → T → Prop}

theorem Simulates.pure (a : α) : Simulates R (pure a : Act S α) (pure a : Act T α) :=
  fun _ _ h => ⟨rfl, h⟩

theorem Simulates.bind {x : Act S α} {y : Act T α} {f : α → Act S β} {g : α → Act T β}
    (hx : Simulates R x y) (hf : ∀ a, Simulates R (f a) (g a)) :
    Simulates R (x >>= f) (y >>= g) := by
  intro s t h
  obtain ⟨h1, h2⟩ := hx s t h
  rw [Act.bind_apply, Act.bind_apply, h1]
  exact hf _ _ _ h2

theorem Simulates.ite {c : Prop} [Decidable c] {x x' : Act S α} {y y' : Act T α}
    (h : Simulates R x y) (h' : Simulates R x' y') :
    Simulates R (if c then x else x') (if c then y else y') := by
  split
  · exact h
  · exact h'

end

end Act

namespace Bus

/-- One access as the device sees it. A read carries the value it was answered with. -/
inductive Access (A V : Type) where
  | read (a : A) (v : V)
  | write (a : A) (v : V)
  deriving DecidableEq, Repr

/-- What a read answers, and how reads and writes move the device. -/
structure Device (A V σ : Type) where
  read : A → σ → V × σ
  write : A → V → σ → σ

/-- A device state and every access made so far, oldest first. -/
structure Machine (A V σ : Type) where
  dev : σ
  log : List (Access A V)

variable {A V σ α β : Type}

/-- Read register `a`. -/
def Device.get (D : Device A V σ) (a : A) : Act (Machine A V σ) V :=
  fun m => ((D.read a m.dev).1, ⟨(D.read a m.dev).2, m.log ++ [.read a (D.read a m.dev).1]⟩)

/-- Write `v` to register `a`. -/
def Device.put (D : Device A V σ) (a : A) (v : V) : Act (Machine A V σ) Unit :=
  fun m => ((), ⟨D.write a v m.dev, m.log ++ [.write a v]⟩)

/-- The values a log shows as written to register `a`, in order. -/
def writesTo [DecidableEq A] (a : A) : List (Access A V) → List V
  | [] => []
  | .write b v :: rest => if b = a then v :: writesTo a rest else writesTo a rest
  | .read _ _ :: rest => writesTo a rest

/-- The values a log shows as read from register `a`, in order. -/
def readsOf [DecidableEq A] (a : A) : List (Access A V) → List V
  | [] => []
  | .read b v :: rest => if b = a then v :: readsOf a rest else readsOf a rest
  | .write _ _ :: rest => readsOf a rest

theorem writesTo_append [DecidableEq A] (a : A) (xs ys : List (Access A V)) :
    writesTo a (xs ++ ys) = writesTo a xs ++ writesTo a ys := by
  induction xs with
  | nil => rfl
  | cons x xs ih =>
    cases x with
    | read b v => simpa [writesTo] using ih
    | write b v =>
      by_cases h : b = a
      · simp [writesTo, h, ih]
      · simp [writesTo, h, ih]

theorem readsOf_append [DecidableEq A] (a : A) (xs ys : List (Access A V)) :
    readsOf a (xs ++ ys) = readsOf a xs ++ readsOf a ys := by
  induction xs with
  | nil => rfl
  | cons x xs ih =>
    cases x with
    | write b v => simpa [readsOf] using ih
    | read b v =>
      by_cases h : b = a
      · simp [readsOf, h, ih]
      · simp [readsOf, h, ih]

/-- Accesses that write nothing. -/
def Silent [DecidableEq A] (es : List (Access A V)) : Prop := ∀ a, writesTo a es = []

theorem mem_writesTo [DecidableEq A] {a : A} {v : V} {es : List (Access A V)} :
    v ∈ writesTo a es ↔ .write a v ∈ es := by
  induction es with
  | nil => simp [writesTo]
  | cons e es ih =>
    cases e with
    | read b w => simpa [writesTo] using ih
    | write b w =>
      by_cases h : b = a
      · simp [writesTo, h, ih]
      · simp [writesTo, h, ih, Ne.symm h]

theorem Silent.no_write [DecidableEq A] {es : List (Access A V)} (h : Silent es) (a : A)
    (v : V) : .write a v ∉ es := by
  rw [← mem_writesTo, h a]
  exact List.not_mem_nil

theorem silent_nil [DecidableEq A] : Silent ([] : List (Access A V)) := fun _ => rfl

theorem silent_read [DecidableEq A] (a : A) (v : V) : Silent [Access.read a v] := fun _ => rfl

theorem Silent.append [DecidableEq A] {es es' : List (Access A V)} (h : Silent es)
    (h' : Silent es') : Silent (es ++ es') := by
  intro a
  rw [writesTo_append, h a, h' a, List.append_nil]

/-! ## Specifications -/

/-- From a device state in `pre`, `x` leaves the accesses already logged alone, and `post`
    relates its result, the accesses it makes and the device state it ends in. -/
def Spec (pre : σ → Prop) (x : Act (Machine A V σ) α)
    (post : α → List (Access A V) → σ → Prop) : Prop :=
  ∀ m, pre m.dev → ∃ es, (x m).2.log = m.log ++ es ∧ post (x m).1 es (x m).2.dev

/-- A specification that says nothing about the device. -/
abbrev Emits (x : Act (Machine A V σ) α) (post : α → List (Access A V) → Prop) : Prop :=
  Spec (fun _ => True) x fun a es _ => post a es

section
variable {pre : σ → Prop} {x : Act (Machine A V σ) α}

theorem Spec.pure {post : α → List (Access A V) → σ → Prop} {a : α}
    (h : ∀ s, pre s → post a [] s) : Spec pre (pure a) post :=
  fun m hm => ⟨[], by simp, h _ hm⟩

theorem Spec.bind {mid : α → List (Access A V) → σ → Prop}
    {f : α → Act (Machine A V σ) β} {post : β → List (Access A V) → σ → Prop}
    (hx : Spec pre x mid)
    (hf : ∀ a es, Spec (mid a es) (f a) fun b es' s => post b (es ++ es') s) :
    Spec pre (x >>= f) post := by
  intro m hm
  obtain ⟨es, hes, hmid⟩ := hx m hm
  obtain ⟨es', hes', hpost⟩ := hf _ _ _ hmid
  refine ⟨es ++ es', ?_, hpost⟩
  rw [Act.bind_apply, hes', hes, List.append_assoc]

theorem Spec.ite {c : Prop} [Decidable c] {y : Act (Machine A V σ) α}
    {post : α → List (Access A V) → σ → Prop} (hx : c → Spec pre x post)
    (hy : ¬ c → Spec pre y post) : Spec pre (if c then x else y) post := by
  split
  · exact hx ‹_›
  · exact hy ‹_›

theorem Spec.mono {pre' : σ → Prop} {post post' : α → List (Access A V) → σ → Prop}
    (h : Spec pre x post) (hpre : ∀ s, pre' s → pre s)
    (hpost : ∀ a es s, post a es s → post' a es s) : Spec pre' x post' := by
  intro m hm
  obtain ⟨es, hes, hp⟩ := h m (hpre _ hm)
  exact ⟨es, hes, hpost _ _ _ hp⟩

/-- The rule for a sequence whose first part's specification says `P` of its result and
    accesses and `Q` of the device state it leaves. -/
theorem Spec.seq {P : α → List (Access A V) → Prop} {Q : α → List (Access A V) → σ → Prop}
    {f : α → Act (Machine A V σ) β} {post : β → List (Access A V) → σ → Prop}
    (hx : Spec pre x fun a es s => P a es ∧ Q a es s)
    (hf : ∀ a es, P a es → Spec (Q a es) (f a) fun b es' s => post b (es ++ es') s) :
    Spec pre (x >>= f) post :=
  Spec.bind hx fun a es m hm => hf a es hm.1 m hm.2

/-- The rule for a sequence when nothing is kept of the device state between the parts. -/
theorem Spec.andThen {P : α → List (Access A V) → Prop} {f : α → Act (Machine A V σ) β}
    {post : β → List (Access A V) → σ → Prop} (hx : Spec pre x fun a es _ => P a es)
    (hf : ∀ a es, P a es → Spec (fun _ => True) (f a) fun b es' s => post b (es ++ es') s) :
    Spec pre (x >>= f) post :=
  Spec.bind hx fun a es m hm => hf a es hm m trivial

theorem Spec.and {post post' : α → List (Access A V) → σ → Prop} (h : Spec pre x post)
    (h' : Spec pre x post') : Spec pre x fun a es s => post a es s ∧ post' a es s := by
  intro m hm
  obtain ⟨es, hes, hp⟩ := h m hm
  obtain ⟨es', hes', hp'⟩ := h' m hm
  obtain rfl : es = es' := List.append_cancel_left (hes.symm.trans hes')
  exact ⟨es, hes, hp, hp'⟩

theorem Device.spec_get (D : Device A V σ) (a : A) :
    Spec pre (D.get a) fun v es s' => es = [.read a v] ∧ ∃ s, pre s ∧ D.read a s = (v, s') :=
  fun m hm => ⟨_, rfl, rfl, m.dev, hm, rfl⟩

theorem Device.spec_put (D : Device A V σ) (a : A) (v : V) :
    Spec pre (D.put a v) fun _ es s' => es = [.write a v] ∧ ∃ s, pre s ∧ s' = D.write a v s :=
  fun m hm => ⟨_, rfl, rfl, m.dev, hm, rfl⟩

end

/-- A read, when nothing is known of the device. -/
theorem Device.emits_get (D : Device A V σ) (a : A) :
    Emits (D.get a) fun v es => es = [.read a v] :=
  Spec.mono (D.spec_get a) (fun _ h => h) fun _ _ _ h => h.1

theorem Device.emits_put (D : Device A V σ) (a : A) (v : V) :
    Emits (D.put a v) fun _ es => es = [.write a v] :=
  Spec.mono (D.spec_put a v) (fun _ h => h) fun _ _ _ h => h.1

theorem Emits.bind {x : Act (Machine A V σ) α} {mid : α → List (Access A V) → Prop}
    {f : α → Act (Machine A V σ) β} {post : β → List (Access A V) → Prop} (hx : Emits x mid)
    (hf : ∀ a es, mid a es → Emits (f a) fun b es' => post b (es ++ es')) :
    Emits (x >>= f) post :=
  Spec.andThen hx hf

/-- What holds on any device holds from any state of this one. -/
theorem Emits.spec {pre : σ → Prop} {x : Act (Machine A V σ) α}
    {post : α → List (Access A V) → Prop} (h : Emits x post) :
    Spec pre x fun a es _ => post a es :=
  fun m _ => h m trivial

theorem Emits.mono {x : Act (Machine A V σ) α} {post post' : α → List (Access A V) → Prop}
    (h : Emits x post) (hpost : ∀ a es, post a es → post' a es) : Emits x post' :=
  Spec.mono h (fun _ h => h) fun a es _ => hpost a es

theorem Emits.and {x : Act (Machine A V σ) α} {post post' : α → List (Access A V) → Prop}
    (h : Emits x post) (h' : Emits x post') : Emits x fun a es => post a es ∧ post' a es :=
  Spec.and h h'

/-- The accesses `x` makes when run at `m`. -/
def trace (x : Act (Machine A V σ) α) (m : Machine A V σ) : List (Access A V) :=
  (x m).2.log.drop m.log.length

theorem Spec.at {pre : σ → Prop} {x : Act (Machine A V σ) α}
    {post : α → List (Access A V) → σ → Prop} (h : Spec pre x post) {m : Machine A V σ}
    (hm : pre m.dev) : post (x m).1 (trace x m) (x m).2.dev := by
  obtain ⟨es, hes, hp⟩ := h m hm
  rw [trace, hes, List.drop_left]
  exact hp

/-! ## Code that stays within some registers -/

/-- The register an access is to. -/
def Access.addr : Access A V → A
  | .read a _ => a
  | .write a _ => a

/-- Code that accesses the device only at registers in `P`. -/
inductive Within (D : Device A V σ) (P : A → Prop) :
    {α : Type} → Act (Machine A V σ) α → Prop
  | pure {α : Type} (a : α) : Within D P (pure a)
  | get {a : A} (h : P a) : Within D P (D.get a)
  | put {a : A} (v : V) (h : P a) : Within D P (D.put a v)
  | bind {α β : Type} {x : Act (Machine A V σ) α} {f : α → Act (Machine A V σ) β}
      (hx : Within D P x) (hf : ∀ a, Within D P (f a)) : Within D P (x >>= f)

namespace Within

variable {D : Device A V σ} {P : A → Prop}

theorem ite {c : Prop} [Decidable c] {x y : Act (Machine A V σ) α} (hx : Within D P x)
    (hy : Within D P y) : Within D P (if c then x else y) := by
  split
  · exact hx
  · exact hy

theorem emits {x : Act (Machine A V σ) α} (h : Within D P x) :
    Emits x fun _ es => ∀ e ∈ es, P e.addr := by
  induction h with
  | pure a => exact Spec.pure fun _ _ => by simp
  | get h => exact (D.emits_get _).mono fun _ _ hes => by simpa [hes, Access.addr] using h
  | put v h => exact (D.emits_put _ v).mono fun _ _ hes => by simpa [hes, Access.addr] using h
  | bind hx hf ihx ihf =>
    refine ihx.bind fun a es hes => (ihf a).mono fun b es' hes' e he => ?_
    rcases List.mem_append.mp he with he | he
    · exact hes e he
    · exact hes' e he

/-- What every access in `P` preserves, the code preserves. -/
theorem keeps {I : σ → Prop} (hread : ∀ a s, P a → I s → I (D.read a s).2)
    (hwrite : ∀ a v s, P a → I s → I (D.write a v s)) {x : Act (Machine A V σ) α}
    (h : Within D P x) (m : Machine A V σ) (hm : I m.dev) : I (x m).2.dev := by
  induction h generalizing m with
  | pure a => exact hm
  | get h => exact hread _ _ h hm
  | put v h => exact hwrite _ v _ h hm
  | bind hx hf ihx ihf => exact ihf _ _ (ihx m hm)

end Within

theorem writesTo_of_addr [DecidableEq A] {a : A} {es : List (Access A V)}
    (h : ∀ e ∈ es, e.addr ≠ a) : writesTo a es = [] := by
  induction es with
  | nil => rfl
  | cons e es ih =>
    have hes := ih fun e he => h e (List.mem_cons_of_mem _ he)
    cases e with
    | read b v => exact hes
    | write b v =>
      have hb : b ≠ a := h (.write b v) List.mem_cons_self
      rw [writesTo, if_neg hb, hes]

/-! ## Registers that answer from a stream -/

/-- The device whose registers answer their reads from the streams `s`, whatever is written.
    Its state counts the reads made of each register. -/
def Device.streams [DecidableEq A] (s : A → Nat → V) : Device A V (A → Nat) where
  read a n := (s a (n a), Function.update n a (n a + 1))
  write _ _ n := n

section
variable [DecidableEq A] (s : A → Nat → V) {pre : (A → Nat) → Prop}

theorem Device.spec_streams_get (a : A) (k : Nat) (hk : ∀ n, pre n → n a = k) :
    Spec pre ((Device.streams s).get a) fun v es n' =>
      (v = s a k ∧ es = [.read a (s a k)]) ∧
        ∃ n, pre n ∧ n' = Function.update n a (k + 1) := by
  intro m hm
  have hn := hk _ hm
  refine ⟨_, rfl, ?_⟩
  simp only [Device.get, Device.streams, hn]
  exact ⟨⟨trivial, trivial⟩, m.dev, hm, rfl⟩

theorem Device.spec_streams_put (a : A) (v : V) :
    Spec pre ((Device.streams s).put a v) fun _ es n' => es = [.write a v] ∧ pre n' :=
  fun _ hm => ⟨_, rfl, rfl, hm⟩

end

/-! ## Every state on the way -/

/-- A device state, and every state entered so far, oldest first. -/
structure Recorded (σ : Type) where
  now : σ
  entered : List σ

/-- The device, keeping the states its accesses lead to. -/
def Device.recorded (D : Device A V σ) : Device A V (Recorded σ) where
  read a r := ((D.read a r.now).1, ⟨(D.read a r.now).2, r.entered ++ [(D.read a r.now).2]⟩)
  write a v r := ⟨D.write a v r.now, r.entered ++ [D.write a v r.now]⟩

/-- The device is in state `s`, and every state entered so far satisfies `P`. -/
def Recorded.At (P : σ → Prop) (s : σ) (r : Recorded σ) : Prop :=
  r.now = s ∧ ∀ t ∈ r.entered, P t

theorem Recorded.At.enter {P : σ → Prop} {s t : σ} {r : Recorded σ} (h : r.At P s) (ht : P t) :
    Recorded.At P t ⟨t, r.entered ++ [t]⟩ := by
  refine ⟨rfl, fun u hu => ?_⟩
  rcases List.mem_append.mp hu with hu | hu
  · exact h.2 u hu
  · rw [List.mem_singleton.mp hu]
    exact ht

theorem Device.spec_recorded_get (D : Device A V σ) {P : σ → Prop} (a : A) (s : σ)
    (h : P (D.read a s).2) :
    Spec (Recorded.At P s) (D.recorded.get a) fun v _ r =>
      v = (D.read a s).1 ∧ r.At P (D.read a s).2 := by
  intro m hm
  refine ⟨_, rfl, ?_⟩
  obtain ⟨rfl, -⟩ := id hm
  exact ⟨rfl, hm.enter h⟩

theorem Device.spec_recorded_put (D : Device A V σ) {P : σ → Prop} (a : A) (v : V) (s : σ)
    (h : P (D.write a v s)) :
    Spec (Recorded.At P s) (D.recorded.put a v) fun _ _ r => r.At P (D.write a v s) := by
  intro m hm
  refine ⟨_, rfl, ?_⟩
  obtain ⟨rfl, -⟩ := id hm
  exact hm.enter h

end Bus

end FpgaPartialReconfig
