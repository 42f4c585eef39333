/-
  Sorting a stream into bounded queues.

  What arrives is sorted by its key into queues of `depth` places; what is expected is taken
  one after the other, each from the queue of its key. Within a key both streams have the same
  order, so each item meets its own (`Inv.own`).

  The sorter holds one item at a time. Where the queue of its key is full it waits, and with it
  all that comes after, also what the comparator waits for. So everything is matched in the
  end exactly if no arriving item has, of another key, more than `depth` items before it that
  are not expected before it (`WithinReach`; `finished_of_stuck`, `matched_le`).
-/
import FpgaPartialReconfig.Lib.Processes
import Mathlib.Logic.Function.Basic

namespace FpgaPartialReconfig

/-- The predictor sends what is expected, the monitor what arrives. -/
inductive Process
  | predictor | monitor | sorter | comparator
  deriving DecidableEq, Repr

structure Sorter (K T : Type) where
  predicted : List T
  monitored : List T
  expected : List T
  arrived : List T
  /-- What the sorter has in its hands. -/
  holding : Option T
  queue : K → List T
  /-- What the comparator waits for. -/
  waiting : Option T
  matched : List (T × T)

namespace Sorter

variable {K T : Type}

def start (predicted monitored : List T) : Sorter K T where
  predicted := predicted
  monitored := monitored
  expected := []
  arrived := []
  holding := none
  queue _ := []
  waiting := none
  matched := []

/-- What has been matched. -/
def done (s : Sorter K T) : List T := s.matched.map Prod.fst

/-- What the sorter has not sorted yet. -/
def unsorted (s : Sorter K T) : List T := s.holding.toList ++ (s.arrived ++ s.monitored)

/-- What the comparator has not matched yet. -/
def unmatched (s : Sorter K T) : List T := s.waiting.toList ++ (s.expected ++ s.predicted)

section
variable {s : Sorter K T} {t : T} {rest : List T}

theorem unmatched_predict (hlist : s.predicted = t :: rest) :
    unmatched { s with predicted := rest, expected := s.expected ++ [t] } = s.unmatched := by
  unfold unmatched
  rw [hlist, List.append_assoc]
  rfl

theorem unmatched_await (hidle : s.waiting = none) (hlist : s.expected = t :: rest) :
    unmatched { s with expected := rest, waiting := some t } = s.unmatched := by
  unfold unmatched
  rw [hlist, hidle]
  rfl

theorem unsorted_monitor (hlist : s.monitored = t :: rest) :
    unsorted { s with monitored := rest, arrived := s.arrived ++ [t] } = s.unsorted := by
  unfold unsorted
  rw [hlist, List.append_assoc]
  rfl

theorem unsorted_take (hfree : s.holding = none) (hlist : s.arrived = t :: rest) :
    unsorted { s with arrived := rest, holding := some t } = s.unsorted := by
  unfold unsorted
  rw [hlist, hfree]
  rfl

end

/-! ## Acts -/

variable [DecidableEq K]

section
variable (key : T → K) (depth : Nat)

def act (p : Process) (s : Sorter K T) : Option (Sorter K T) :=
  match p with
  | .predictor =>
    match s.predicted with
    | [] => none
    | e :: rest => some { s with predicted := rest, expected := s.expected ++ [e] }
  | .monitor =>
    match s.monitored with
    | [] => none
    | m :: rest => some { s with monitored := rest, arrived := s.arrived ++ [m] }
  | .sorter =>
    match s.holding with
    | none =>
      match s.arrived with
      | [] => none
      | m :: rest => some { s with arrived := rest, holding := some m }
    | some m =>
      if (s.queue (key m)).length < depth then
        some { s with
          queue := Function.update s.queue (key m) (s.queue (key m) ++ [m])
          holding := none }
      else
        none
  | .comparator =>
    match s.waiting with
    | none =>
      match s.expected with
      | [] => none
      | e :: rest => some { s with expected := rest, waiting := some e }
    | some e =>
      match s.queue (key e) with
      | [] => none
      | m :: rest =>
        some { s with
          queue := Function.update s.queue (key e) rest
          waiting := none
          matched := s.matched ++ [(e, m)] }

/-- What an act can be. -/
inductive Acts : Sorter K T → Sorter K T → Prop
  | predict {s : Sorter K T} (e : T) (rest : List T) (h : s.predicted = e :: rest) :
    Acts s { s with predicted := rest, expected := s.expected ++ [e] }
  | monitor {s : Sorter K T} (m : T) (rest : List T) (h : s.monitored = m :: rest) :
    Acts s { s with monitored := rest, arrived := s.arrived ++ [m] }
  | take {s : Sorter K T} (m : T) (rest : List T) (hfree : s.holding = none)
    (h : s.arrived = m :: rest) : Acts s { s with arrived := rest, holding := some m }
  | sort {s : Sorter K T} (m : T) (hholding : s.holding = some m)
    (hroom : (s.queue (key m)).length < depth) :
    Acts s { s with
      queue := Function.update s.queue (key m) (s.queue (key m) ++ [m])
      holding := none }
  | await {s : Sorter K T} (e : T) (rest : List T) (hidle : s.waiting = none)
    (h : s.expected = e :: rest) : Acts s { s with expected := rest, waiting := some e }
  | pair {s : Sorter K T} (e m : T) (rest : List T) (hwaiting : s.waiting = some e)
    (h : s.queue (key e) = m :: rest) :
    Acts s { s with
      queue := Function.update s.queue (key e) rest
      waiting := none
      matched := s.matched ++ [(e, m)] }

theorem acts_of_act {p : Process} {s s' : Sorter K T} (h : act key depth p s = some s') :
    Acts key depth s s' := by
  cases p with
  | predictor =>
    simp only [act] at h
    split at h
    · exact nomatch h
    · rename_i e rest hlist
      rw [← Option.some.inj h]
      exact .predict e rest hlist
  | monitor =>
    simp only [act] at h
    split at h
    · exact nomatch h
    · rename_i m rest hlist
      rw [← Option.some.inj h]
      exact .monitor m rest hlist
  | sorter =>
    simp only [act] at h
    split at h
    · rename_i hfree
      split at h
      · exact nomatch h
      · rename_i m rest hlist
        rw [← Option.some.inj h]
        exact .take m rest hfree hlist
    · rename_i m hholding
      split at h
      · rename_i hroom
        rw [← Option.some.inj h]
        exact .sort m hholding hroom
      · exact nomatch h
  | comparator =>
    simp only [act] at h
    split at h
    · rename_i hidle
      split at h
      · exact nomatch h
      · rename_i e rest hlist
        rw [← Option.some.inj h]
        exact .await e rest hidle hlist
    · rename_i e hwaiting
      split at h
      · exact nomatch h
      · rename_i m rest hqueue
        rw [← Option.some.inj h]
        exact .pair e m rest hwaiting hqueue

/-- Steps that the items have still to go. -/
def measure (s : Sorter K T) : Nat :=
  3 * s.predicted.length + 2 * s.expected.length + s.waiting.toList.length +
    (3 * s.monitored.length + 2 * s.arrived.length + s.holding.toList.length)

theorem measure_act (p : Process) (s s' : Sorter K T) (hact : act key depth p s = some s') :
    s'.measure < s.measure := by
  unfold measure
  cases acts_of_act key depth hact with
  | predict e rest hlist =>
    simp only [hlist, List.length_append, List.length_cons, List.length_nil]
    omega
  | monitor m rest hlist =>
    simp only [hlist, List.length_append, List.length_cons, List.length_nil]
    omega
  | take m rest hfree hlist =>
    simp only [hlist, hfree, Option.toList_some, Option.toList_none, List.length_cons,
      List.length_nil]
    omega
  | sort m hholding hroom =>
    simp only [hholding, Option.toList_some, Option.toList_none, List.length_cons, List.length_nil]
    omega
  | await e rest hidle hlist =>
    simp only [hlist, hidle, Option.toList_some, Option.toList_none, List.length_cons,
      List.length_nil]
    omega
  | pair e m rest hwaiting hqueue =>
    simp only [hwaiting, Option.toList_some, Option.toList_none, List.length_cons, List.length_nil]
    omega

/-- The items of a key, in their order. -/
def ofKey (k : K) (ts : List T) : List T := ts.filter fun t => key t = k

/-- What comes before an item's arrival, of any other key, is expected before it, up to
    `depth` items. -/
def WithinReach (E M : List T) : Prop :=
  ∀ done e rest front back, E = done ++ e :: rest → M = front ++ e :: back →
    ofKey key (key e) front = ofKey key (key e) done →
      ∀ k, k ≠ key e → (ofKey key k front).length ≤ (ofKey key k done).length + depth

end

/-! ## Items of a key -/

section
variable (key : T → K) (k : K)

theorem ofKey_append (xs ys : List T) : ofKey key k (xs ++ ys) = ofKey key k xs ++ ofKey key k ys :=
  List.filter_append xs ys

variable {key k}

theorem ofKey_cons_self {t : T} {ts : List T} (h : key t = k) :
    ofKey key k (t :: ts) = t :: ofKey key k ts := List.filter_cons_of_pos (decide_eq_true h)

theorem ofKey_cons_other {t : T} {ts : List T} (h : key t ≠ k) :
    ofKey key k (t :: ts) = ofKey key k ts :=
  List.filter_cons_of_neg (by rw [decide_eq_true_iff]; exact h)

theorem ofKey_length_le {xs ys : List T} (h : xs <+: ys) :
    (ofKey key k xs).length ≤ (ofKey key k ys).length := (h.filter _).length_le

/-- The first item of a key in a list, with what is before it. -/
theorem split_ofKey {ts : List T} {t : T} {rest : List T} (h : ofKey key k ts = t :: rest) :
    ∃ before after, ts = before ++ t :: after ∧ ofKey key k before = [] := by
  induction ts with
  | nil => exact absurd h (List.cons_ne_nil t rest).symm
  | cons a ts ih =>
    by_cases ha : key a = k
    · rw [ofKey_cons_self ha] at h
      exact ⟨[], ts, by rw [(List.cons.inj h).1]; rfl, rfl⟩
    · rw [ofKey_cons_other ha] at h
      obtain ⟨before, after, hts, hnone⟩ := ih h
      refine ⟨a :: before, after, by rw [hts]; rfl, ?_⟩
      rw [ofKey_cons_other ha]
      exact hnone

end

/-! ## The invariant -/

variable {key : T → K} {depth : Nat} {E M : List T}

/-- Nothing comes to what is not matched yet, -/
theorem unmatched_suffix {p : Process} {s s' : Sorter K T} (hact : act key depth p s = some s') :
    s'.unmatched <:+ s.unmatched := by
  cases acts_of_act key depth hact with
  | predict e rest hlist => exact ⟨[], unmatched_predict hlist⟩
  | monitor m rest hlist => exact List.suffix_refl _
  | take m rest hfree hlist => exact List.suffix_refl _
  | sort m hholding hroom => exact List.suffix_refl _
  | await e rest hidle hlist => exact ⟨[], unmatched_await hidle hlist⟩
  | pair e m rest hwaiting hqueue => exact List.suffix_append _ _

/-- and nothing to what is not sorted yet. -/
theorem unsorted_suffix {p : Process} {s s' : Sorter K T} (hact : act key depth p s = some s') :
    s'.unsorted <:+ s.unsorted := by
  cases acts_of_act key depth hact with
  | predict e rest hlist => exact List.suffix_refl _
  | monitor m rest hlist => exact ⟨[], unsorted_monitor hlist⟩
  | take m rest hfree hlist => exact ⟨[], unsorted_take hfree hlist⟩
  | sort m hholding hroom => exact List.suffix_append _ _
  | await e rest hidle hlist => exact List.suffix_refl _
  | pair e m rest hwaiting hqueue => exact List.suffix_refl _

/-- The sorted items of a key are those that are matched and those in its queue. -/
structure Inv (key : T → K) (depth : Nat) (E M : List T) (s : Sorter K T) : Prop where
  expected : E = s.done ++ s.unmatched
  own : ∀ em ∈ s.matched, em.2 = em.1
  sorted : ∃ sorted, M = sorted ++ s.unsorted ∧
    ∀ k, ofKey key k sorted = ofKey key k s.done ++ s.queue k
  bound : ∀ k, (s.queue k).length ≤ depth

theorem Inv.matched_eq {s : Sorter K T} (h : Inv key depth E M s) :
    s.matched = s.done.map fun e => (e, e) := by
  unfold done
  rw [List.map_map]
  have hpairs : s.matched.map (fun em => (em.1, em.1)) = s.matched.map id := by
    apply List.map_congr_left
    intro em hem
    exact Prod.ext rfl (h.own em hem).symm
  exact (List.map_id _).symm.trans hpairs.symm

theorem Inv.done_eq_take {s : Sorter K T} (h : Inv key depth E M s) :
    s.done = E.take s.done.length :=
  List.prefix_iff_eq_take.mp ⟨s.unmatched, h.expected.symm⟩

theorem inv_start : Inv key depth E M (start E M) where
  expected := rfl
  own _ hem := absurd hem List.not_mem_nil
  sorted := ⟨[], rfl, fun _ => rfl⟩
  bound _ := Nat.zero_le depth

theorem update_of_key {s : Sorter K T} {m : T} {q : List T} (k : K) :
    Function.update s.queue (key m) q k = if k = key m then q else s.queue k :=
  Function.update_apply s.queue (key m) q k

/-- What is put into a queue has been sorted. -/
theorem Inv.sort {s : Sorter K T} {m : T} (h : Inv key depth E M s) (hholding : s.holding = some m)
    (hroom : (s.queue (key m)).length < depth) :
    Inv key depth E M { s with
      queue := Function.update s.queue (key m) (s.queue (key m) ++ [m])
      holding := none } := by
  obtain ⟨sorted, hM, hqueues⟩ := h.sorted
  refine ⟨h.expected, h.own, ⟨sorted ++ [m], ?_, ?_⟩, ?_⟩
  · rw [hM]
    unfold unsorted
    rw [hholding, List.append_assoc]
    rfl
  · intro k
    simp only [ofKey_append, hqueues k, update_of_key]
    split
    · rename_i hk
      rw [hk, ofKey_cons_self rfl, List.append_assoc]
      rfl
    · rename_i hk
      rw [ofKey_cons_other fun hsame => hk hsame.symm]
      exact List.append_nil _
  · intro k
    simp only [update_of_key]
    split
    · rw [List.length_append]
      exact hroom
    · exact h.bound k

/-- The item at the front of the queue is the one that is waited for. -/
theorem Inv.own_front {s : Sorter K T} {e m : T} {rest : List T} (h : Inv key depth E M s)
    (hkeys : ∀ k, ofKey key k M = ofKey key k E) (hwaiting : s.waiting = some e)
    (hqueue : s.queue (key e) = m :: rest) : m = e := by
  obtain ⟨sorted, hM, hqueues⟩ := h.sorted
  have hkey := hkeys (key e)
  have hexpected := h.expected
  unfold unmatched at hexpected
  rw [hwaiting] at hexpected
  rw [hM, hexpected, ofKey_append, ofKey_append, hqueues, hqueue, List.append_assoc] at hkey
  have hrest := List.append_cancel_left hkey
  rw [Option.toList_some, List.singleton_append, ofKey_cons_self rfl] at hrest
  exact (List.cons.inj hrest).1

theorem Inv.pair {s : Sorter K T} {e m : T} {rest : List T} (h : Inv key depth E M s)
    (hkeys : ∀ k, ofKey key k M = ofKey key k E) (hwaiting : s.waiting = some e)
    (hqueue : s.queue (key e) = m :: rest) :
    Inv key depth E M { s with
      queue := Function.update s.queue (key e) rest
      waiting := none
      matched := s.matched ++ [(e, m)] } := by
  have hown : m = e := h.own_front hkeys hwaiting hqueue
  obtain ⟨sorted, hM, hqueues⟩ := h.sorted
  have hdone : ({ s with
      queue := Function.update s.queue (key e) rest
      waiting := none
      matched := s.matched ++ [(e, m)] } : Sorter K T).done = s.done ++ [e] := by
    unfold done
    rw [List.map_append]
    rfl
  refine ⟨?_, ?_, ⟨sorted, hM, ?_⟩, ?_⟩
  · rw [hdone, h.expected]
    unfold unmatched
    rw [hwaiting, List.append_assoc]
    rfl
  · intro em hem
    rcases List.mem_append.mp hem with hem | hem
    · exact h.own em hem
    · rw [List.mem_singleton.mp hem]
      exact hown
  · intro k
    rw [hdone, hqueues k, ofKey_append, List.append_assoc]
    simp only [update_of_key]
    split
    · rename_i hk
      rw [hk, hqueue, ofKey_cons_self rfl, hown]
      rfl
    · rename_i hk
      rw [ofKey_cons_other fun hsame => hk hsame.symm]
      rfl
  · intro k
    simp only [update_of_key]
    split
    · have hlength := h.bound (key e)
      rw [hqueue, List.length_cons] at hlength
      omega
    · exact h.bound k

theorem inv_act (hkeys : ∀ k, ofKey key k M = ofKey key k E) (p : Process) (s s' : Sorter K T)
    (h : Inv key depth E M s) (hact : act key depth p s = some s') : Inv key depth E M s' := by
  cases acts_of_act key depth hact with
  | predict e rest hlist =>
    refine ⟨?_, h.own, h.sorted, h.bound⟩
    rw [unmatched_predict hlist]
    exact h.expected
  | monitor m rest hlist =>
    refine ⟨h.expected, h.own, ?_, h.bound⟩
    rw [unsorted_monitor hlist]
    exact h.sorted
  | take m rest hfree hlist =>
    refine ⟨h.expected, h.own, ?_, h.bound⟩
    rw [unsorted_take hfree hlist]
    exact h.sorted
  | sort m hholding hroom => exact h.sort hholding hroom
  | await e rest hidle hlist =>
    refine ⟨?_, h.own, h.sorted, h.bound⟩
    rw [unmatched_await hidle hlist]
    exact h.expected
  | pair e m rest hwaiting hqueue => exact h.pair hkeys hwaiting hqueue

/-! ## Where it stops -/

/-- What all processes are blocked on. -/
structure Blocked (key : T → K) (depth : Nat) (s : Sorter K T) : Prop where
  predicted : s.predicted = []
  monitored : s.monitored = []
  arrived : s.holding = none → s.arrived = []
  holding : ∀ m, s.holding = some m → depth ≤ (s.queue (key m)).length
  expected : s.waiting = none → s.expected = []
  waiting : ∀ e, s.waiting = some e → s.queue (key e) = []

theorem blocked_of_stuck {s : Sorter K T} (h : Processes.Stuck (act key depth) s) :
    Blocked key depth s where
  predicted := by
    have hblocked := h .predictor
    simp only [act] at hblocked
    split at hblocked
    · assumption
    · exact nomatch hblocked
  monitored := by
    have hblocked := h .monitor
    simp only [act] at hblocked
    split at hblocked
    · assumption
    · exact nomatch hblocked
  arrived hfree := by
    have hblocked := h .sorter
    simp only [act, hfree] at hblocked
    split at hblocked
    · assumption
    · exact nomatch hblocked
  holding m hholding := by
    have hblocked := h .sorter
    simp only [act, hholding] at hblocked
    split at hblocked
    · exact nomatch hblocked
    · exact Nat.le_of_not_lt ‹_›
  expected hidle := by
    have hblocked := h .comparator
    simp only [act, hidle] at hblocked
    split at hblocked
    · assumption
    · exact nomatch hblocked
  waiting e hwaiting := by
    have hblocked := h .comparator
    simp only [act, hwaiting] at hblocked
    split at hblocked
    · assumption
    · exact nomatch hblocked

/-- Nothing is left of a key but what is in its queue and unsorted. -/
theorem Inv.key_balance {s : Sorter K T} (h : Inv key depth E M s)
    (hkeys : ∀ k, ofKey key k M = ofKey key k E) (k : K) :
    s.queue k ++ ofKey key k s.unsorted = ofKey key k s.unmatched := by
  obtain ⟨sorted, hM, hqueues⟩ := h.sorted
  have hkey := hkeys k
  rw [hM, h.expected, ofKey_append, ofKey_append, hqueues, List.append_assoc] at hkey
  exact List.append_cancel_left hkey

/-- Nothing is waited for, so nothing is left: a full queue would hold what nobody expects. -/
theorem Blocked.finished {s : Sorter K T} (hblocked : Blocked key depth s) (hdepth : 0 < depth)
    (hkeys : ∀ k, ofKey key k M = ofKey key k E) (h : Inv key depth E M s)
    (hidle : s.waiting = none) : s.done = E ∧ s.holding = none := by
  have hnone : s.unmatched = [] := by
    unfold unmatched
    rw [hidle, hblocked.expected hidle, hblocked.predicted]
    rfl
  have hexpected := h.expected
  rw [hnone, List.append_nil] at hexpected
  refine ⟨hexpected.symm, ?_⟩
  cases hholding : s.holding with
  | none => rfl
  | some m =>
    have hfull := hblocked.holding m hholding
    have hbalance := h.key_balance hkeys (key m)
    rw [hnone] at hbalance
    rw [(List.append_eq_nil_iff.mp hbalance).1, List.length_nil] at hfull
    omega

/-- The item waited for is behind one that does not fit. -/
theorem Blocked.not_withinReach {s : Sorter K T} (hblocked : Blocked key depth s)
    (hdepth : 0 < depth) (hkeys : ∀ k, ofKey key k M = ofKey key k E) (h : Inv key depth E M s)
    {e : T} (hwaiting : s.waiting = some e) : ¬ WithinReach key depth E M := by
  have hempty := hblocked.waiting e hwaiting
  have hnext := h.key_balance hkeys (key e)
  have hexpected := h.expected
  obtain ⟨sorted, hM, hqueues⟩ := h.sorted
  unfold unmatched at hexpected hnext
  unfold unsorted at hM hnext
  rw [hwaiting, hblocked.predicted, List.append_nil] at hexpected hnext
  rw [hblocked.monitored, List.append_nil] at hM hnext
  rw [hempty, List.nil_append, Option.toList_some, List.singleton_append,
    ofKey_cons_self rfl] at hnext
  cases hholding : s.holding with
  | none =>
    rw [hholding, hblocked.arrived hholding] at hnext
    exact absurd hnext (List.cons_ne_nil _ _).symm
  | some m =>
    have hfull := hblocked.holding m hholding
    have hother : key m ≠ key e := by
      intro hsame
      rw [hsame, hempty, List.length_nil] at hfull
      omega
    rw [hholding, Option.toList_some, List.singleton_append, ofKey_cons_other hother] at hnext
    obtain ⟨before, after, harrived, hnone⟩ := split_ofKey hnext
    rw [hholding, harrived] at hM
    have hfront : M = (sorted ++ m :: before) ++ e :: after := by
      rw [hM, List.append_assoc]
      rfl
    have hown : ofKey key (key e) (sorted ++ m :: before) = ofKey key (key e) s.done := by
      rw [ofKey_append, hqueues, hempty, ofKey_cons_other hother, hnone, List.append_nil,
        List.append_nil]
    intro hreach
    have hlength := hreach s.done e s.expected _ after hexpected hfront hown (key m) hother
    rw [ofKey_append, hqueues, ofKey_cons_self rfl, List.length_append, List.length_append,
      List.length_cons] at hlength
    omega

theorem finished_of_stuck {s : Sorter K T} (hdepth : 0 < depth)
    (hkeys : ∀ k, ofKey key k M = ofKey key k E) (hreach : WithinReach key depth E M)
    (h : Inv key depth E M s) (hstuck : Processes.Stuck (act key depth) s) :
    s.done = E ∧ s.holding = none := by
  have hblocked := blocked_of_stuck hstuck
  cases hwaiting : s.waiting with
  | none => exact hblocked.finished hdepth hkeys h hwaiting
  | some e => exact absurd hreach (hblocked.not_withinReach hdepth hkeys h hwaiting)

/-- An item out of reach is not matched, and nothing after it. -/
theorem matched_le {D rest front back : List T} {e : T} (hE : E = D ++ e :: rest)
    (hM : M = front ++ e :: back) (hown : ofKey key (key e) front = ofKey key (key e) D) {k : K}
    (hfar : (ofKey key k D).length + depth < (ofKey key k front).length) (p : Process)
    (s s' : Sorter K T) (h : Inv key depth E M s) (hle : s.matched.length ≤ D.length)
    (hact : act key depth p s = some s') : s'.matched.length ≤ D.length := by
  cases acts_of_act key depth hact with
  | predict e' rest' hlist => exact hle
  | monitor m rest' hlist => exact hle
  | take m rest' hfree hlist => exact hle
  | sort m hholding hroom => exact hle
  | await e' rest' hidle hlist => exact hle
  | pair e' m rest' hwaiting hqueue =>
    simp only [List.length_append, List.length_singleton]
    by_contra hlast
    have hlength : s.done.length = D.length := by
      unfold done
      rw [List.length_map]
      omega
    obtain ⟨sorted, hsorted, hqueues⟩ := h.sorted
    have hexpected := h.expected
    unfold unmatched at hexpected
    rw [hwaiting, hE] at hexpected
    obtain ⟨hdone, hopen⟩ := List.append_inj hexpected hlength.symm
    have he : e = e' := (List.cons.inj hopen).1
    rw [← he] at hqueue
    -- one of the item's key has been sorted, so all that is in front of it has
    have hprefix := List.prefix_or_prefix_of_prefix
      (⟨_, hsorted.symm⟩ : sorted <+: M) (⟨_, hM.symm⟩ : front <+: M)
    rcases hprefix with hshort | hlong
    · have hcount := @ofKey_length_le K T _ key (key e) _ _ hshort
      rw [hown, hqueues, hqueue, ← hdone, List.length_append, List.length_cons] at hcount
      omega
    · have hcount := @ofKey_length_le K T _ key k _ _ hlong
      rw [hqueues, ← hdone, List.length_append] at hcount
      have hbound := h.bound k
      omega

end Sorter

end FpgaPartialReconfig
