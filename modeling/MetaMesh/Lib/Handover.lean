import Mathlib.Data.Nat.Find
import Mathlib.Data.Set.Basic
import Mathlib.Logic.Relation
import Mathlib.Order.Basic

/-!
# Handover chains

An office passes from holder to holder by handovers, each with a signer, an
epoch and an heir.  A holder's next handover is the one of least epoch above
the epoch of the tenure (`Due`); where the handovers due agree on the heir the
tenure is followed by the heir's (`Follows`), and where they do not it is a
`Fork`.  The tenures that follow one another form a chain, and
`due_le_of_since_lt` is its order: what is due after one tenure is due by the
next.

A `View` is what one party knows.  It receives batches of handovers: it keeps
late ones of former holders, and then walks the chain of what it knows.
`receives_all` says where a party ends that has received everything: at the end
of the chain of all handovers, or, if that chain forks, with a contradiction.
Handovers may come early, repeatedly and in any batches, as long as each comes
at least once in order (`Delivery`).
-/

namespace Handover

/-- What the chain reads of a handover. -/
structure Shape (ρ π : Type) where
  signer : ρ → π
  epoch : ρ → Nat
  heir : ρ → π

@[ext] structure Tenure (π : Type) where
  holder : π
  since : Nat

variable {ρ π : Type} (H : Shape ρ π) (S : Set ρ)

/-- The holder's next handovers are those at epoch `n`. -/
def Due (x : Tenure π) (n : Nat) : Prop :=
  x.since < n ∧ (∃ r ∈ S, H.signer r = x.holder ∧ H.epoch r = n) ∧
    ∀ r ∈ S, H.signer r = x.holder → x.since < H.epoch r → n ≤ H.epoch r

/-- The handovers of `p` at epoch `n` name one heir. -/
def Agree (p : π) (n : Nat) : Prop :=
  ∀ r ∈ S, ∀ s ∈ S, H.signer r = p → H.epoch r = n → H.signer s = p → H.epoch s = n →
    H.heir r = H.heir s

def Follows (x y : Tenure π) : Prop :=
  Due H S x y.since ∧ Agree H S x.holder y.since ∧
    ∃ r ∈ S, H.signer r = x.holder ∧ H.epoch r = y.since ∧ H.heir r = y.holder

abbrev Reach : Tenure π → Tenure π → Prop :=
  Relation.ReflTransGen (Follows H S)

def Fork (x : Tenure π) : Prop :=
  ∃ n, Due H S x n ∧ ¬ Agree H S x.holder n

/-- Two handovers that cannot both be followed. -/
def Contradict (r s : ρ) : Prop :=
  H.signer r = H.signer s ∧ H.epoch r = H.epoch s ∧ H.heir r ≠ H.heir s

def Contradictory : Prop :=
  ∃ r ∈ S, ∃ s ∈ S, Contradict H r s

variable {H} {S : Set ρ} {x y z : Tenure π} {n m : Nat}

/-! ## The chain -/

theorem Due.unique (one : Due H S x n) (two : Due H S x m) : n = m := by
  obtain ⟨above, ⟨r, held, signer, rfl⟩, least⟩ := one
  obtain ⟨above', ⟨s, held', signer', rfl⟩, least'⟩ := two
  exact le_antisymm (least s held' signer' above') (least' r held signer above)

/-- A handover above the tenure makes one due. -/
theorem exists_due {r : ρ} (held : r ∈ S) (signer : H.signer r = x.holder)
    (above : x.since < H.epoch r) : ∃ n, Due H S x n ∧ n ≤ H.epoch r := by
  classical
  let p := fun n => x.since < n ∧ ∃ r ∈ S, H.signer r = x.holder ∧ H.epoch r = n
  have some : ∃ n, p n := ⟨H.epoch r, above, r, held, signer, rfl⟩
  refine ⟨Nat.find some, ⟨(Nat.find_spec some).1, (Nat.find_spec some).2, ?_⟩, ?_⟩
  · intro s inS signed later
    exact Nat.find_min' some ⟨later, s, inS, signed, rfl⟩
  · exact Nat.find_min' some ⟨above, r, held, signer, rfl⟩

theorem Follows.rightUnique : Relator.RightUnique (Follows H S) := by
  intro x y z one two
  have since : y.since = z.since := one.1.unique two.1
  obtain ⟨_, agree, r, held, signer, epoch, heir⟩ := one
  obtain ⟨_, _, s, held', signer', epoch', heir'⟩ := two
  have heirs := agree r held s held' signer epoch signer' (epoch'.trans since.symm)
  exact Tenure.ext (by rw [← heir, ← heir', heirs]) since

theorem Reach.since_le (path : Reach H S x y) : x.since ≤ y.since := by
  induction path with
  | refl => exact le_refl _
  | tail _ step ih => exact ih.trans step.1.1.le

/-- What follows first on the way to a later tenure. -/
theorem Reach.exists_follows (path : Reach H S x y) (later : x.since < y.since) :
    ∃ z, Follows H S x z ∧ Reach H S z y := by
  rcases Relation.ReflTransGen.cases_head path with same | found
  · exact absurd later (by rw [same]; exact lt_irrefl _)
  · exact found

theorem Reach.linear (toY : Reach H S x y) (toZ : Reach H S x z) : Reach H S y z ∨ Reach H S z y :=
  Relation.ReflTransGen.total_of_right_unique Follows.rightUnique toY toZ

/-- Tenures of one chain at one epoch are one tenure. -/
theorem Reach.eq_of_since_eq (toY : Reach H S x y) (toZ : Reach H S x z)
    (since : y.since = z.since) : y = z := by
  have apart : ∀ {a b : Tenure π}, Reach H S a b → a.since = b.since → a = b := by
    intro a b path same
    rcases Relation.ReflTransGen.cases_head path with eq | ⟨c, step, rest⟩
    · exact eq
    · have before := step.1.1
      have after := Reach.since_le rest
      omega
  rcases toY.linear toZ with path | path
  · exact apart path since
  · exact (apart path since.symm).symm

/-- What is due after a tenure is due by every later tenure of the chain. -/
theorem due_le_of_since_lt (toY : Reach H S x y) (toZ : Reach H S x z)
    (later : y.since < z.since) (due : Due H S y n) : n ≤ z.since := by
  rcases toY.linear toZ with path | path
  · obtain ⟨w, step, rest⟩ := path.exists_follows later
    rw [due.unique step.1]
    exact Reach.since_le rest
  · have := Reach.since_le path
    omega

/-- Nothing follows a fork. -/
theorem Fork.not_follows (fork : Fork H S x) : ¬ Follows H S x y := by
  rintro ⟨due, agree, _⟩
  obtain ⟨n, due', disagree⟩ := fork
  exact disagree (due'.unique due ▸ agree)

/-- A fork is the last tenure of its chain. -/
theorem Fork.since_le (fork : Fork H S y) (toY : Reach H S x y) (toZ : Reach H S x z) :
    z.since ≤ y.since := by
  by_contra later
  rcases toY.linear toZ with path | path
  · obtain ⟨w, step, _⟩ := path.exists_follows (by omega)
    exact fork.not_follows step
  · have := Reach.since_le path
    omega

/-- Before the end of a chain, what is due is followed. -/
theorem Reach.exists_follows_of_due (toZ : Reach H S x z) (toY : Reach H S x y)
    (last : ∀ n, ¬ Due H S y n) (due : Due H S z n) :
    ∃ w, Follows H S z w ∧ w.since = n ∧ Reach H S w y := by
  rcases toZ.linear toY with path | path
  · rcases Relation.ReflTransGen.cases_head path with rfl | ⟨w, step, rest⟩
    · exact absurd due (last n)
    · exact ⟨w, step, step.1.unique due, rest⟩
  · rcases Relation.ReflTransGen.cases_head path with rfl | ⟨w, step, _⟩
    · exact absurd due (last n)
    · exact absurd step.1 (last _)

/-- Two ends of one chain are one end. -/
theorem Reach.end_unique (toY : Reach H S x y) (toZ : Reach H S x z)
    (endY : ∀ n, ¬ Due H S y n) (endZ : ∀ n, ¬ Due H S z n) : y = z := by
  rcases toY.linear toZ with path | path
  · rcases Relation.ReflTransGen.cases_head path with same | ⟨w, step, _⟩
    · rw [same]
    · exact absurd step.1 (endY _)
  · rcases Relation.ReflTransGen.cases_head path with same | ⟨w, step, _⟩
    · rw [same]
    · exact absurd step.1 (endZ _)

/-! ## Parties -/

/-- What one party knows: the tenure it has arrived at, the holders it has seen,
the handovers it keeps, and whether it has found a contradiction. -/
@[ext] structure View (ρ π : Type) where
  tenure : Tenure π
  holders : Set π
  catalog : Set ρ
  conflicted : Prop

variable (H)

/-- The catalog with the late handovers of the holders seen so far. -/
def View.withLate (v : View ρ π) (batch : Set ρ) : Set ρ :=
  v.catalog ∪ {r | r ∈ batch ∧ H.epoch r ≤ v.tenure.since ∧ H.signer r ∈ v.holders}

/-- The handovers due at a tenure on the way from `x`. -/
def walked (known : Set ρ) (x : Tenure π) : Set ρ :=
  {r | r ∈ known ∧ ∃ z, Reach H known x z ∧ H.signer r = z.holder ∧ Due H known z (H.epoch r)}

/-- What a party keeps of a batch that it walks. -/
abbrev View.kept (v : View ρ π) (batch : Set ρ) : Set ρ :=
  v.withLate H batch ∪ walked H (v.catalog ∪ batch) v.tenure

/-- One batch.  A contradiction among the kept handovers stalls the party;
otherwise it walks to the end of the chain of what it knows. -/
inductive Receives (v : View ρ π) (batch : Set ρ) : View ρ π → Prop
  | stalled (found : Contradictory H (v.withLate H batch)) :
      Receives v batch ⟨v.tenure, v.holders, v.withLate H batch, True⟩
  | walks {y : Tenure π} (clear : ¬ Contradictory H (v.withLate H batch))
      (path : Reach H (v.catalog ∪ batch) v.tenure y)
      (last : ∀ z, ¬ Follows H (v.catalog ∪ batch) y z) :
      Receives v batch
        ⟨y, v.holders ∪ {p | ∃ z, Reach H (v.catalog ∪ batch) v.tenure z ∧ z.holder = p},
          v.withLate H batch ∪ walked H (v.catalog ∪ batch) v.tenure,
          Fork H (v.catalog ∪ batch) y⟩

theorem Receives.congr {H : Shape ρ π} {v v' w : View ρ π} {batch : Set ρ}
    (step : Receives H v batch v') (same : v' = w) : Receives H v batch w :=
  same ▸ step

/-- How the handovers of `S` come in: `turn r` is a batch that has `r`, and the
turns are in the order of epochs; no handover comes before the turn of an
earlier one of its signer. -/
structure Delivery (S : Set ρ) (count : Nat) (batch : Nat → Set ρ) (turn : ρ → Nat) : Prop where
  within : ∀ k < count, batch k ⊆ S
  comes : ∀ r ∈ S, turn r < count ∧ r ∈ batch (turn r)
  inOrder : ∀ r ∈ S, ∀ s ∈ S, H.epoch s < H.epoch r → turn s ≤ turn r
  bySigner : ∀ k < count, ∀ r ∈ batch k, ∀ s ∈ S, H.signer s = H.signer r →
    H.epoch s < H.epoch r → turn s ≤ k

variable {H} {g : Tenure π} {count : Nat} {batch : Nat → Set ρ} {turn : ρ → Nat} {k : Nat}
  {v v' : View ρ π}

variable (H S) in
/-- The tenure lies beyond a fork of the chain from `g`. -/
def Passed (g y : Tenure π) : Prop :=
  ∃ c n, Reach H S g c ∧ Fork H S c ∧ Due H S c n ∧ n ≤ y.since

/-- Behind a fork nothing is due any more. -/
theorem Passed.due_le (passed : Passed H S g y) (toX : Reach H S g x) (due : Due H S x n) :
    n ≤ y.since := by
  obtain ⟨c, m, toC, fork, dueC, le⟩ := passed
  rcases (fork.since_le toC toX).lt_or_eq with before | same
  · have := due_le_of_since_lt toX toC before due
    have := dueC.1
    omega
  · rw [toX.eq_of_since_eq toC same] at due
    rw [due.unique dueC]
    exact le

theorem Passed.since_lt (passed : Passed H S g y) (toX : Reach H S g x) : x.since < y.since := by
  obtain ⟨c, m, toC, fork, dueC, le⟩ := passed
  have := fork.since_le toC toX
  have := dueC.1
  omega

variable (H S g turn k v)

/-- The state of a party that has found no contradiction after `k` batches. -/
structure Clear : Prop where
  unconflicted : ¬ v.conflicted
  consistent : ¬ Contradictory H v.catalog
  within : v.catalog ⊆ S
  place : Reach H S g v.tenure ∨ Passed H S g v.tenure
  seen : ∀ x, Reach H S g x → x.since ≤ v.tenure.since → x.holder ∈ v.holders
  bound : ∀ r ∈ v.catalog, H.epoch r ≤ v.tenure.since
  signed : ∀ r ∈ v.catalog, H.signer r ∈ v.holders
  held : ∀ r ∈ S, turn r < k → ∀ x, Reach H S g x → H.signer r = x.holder →
    Due H S x (H.epoch r) → r ∈ v.catalog
  rooted : (∀ x, Reach H S g x → ¬ Fork H S x) → ∀ p ∈ v.holders,
    ∃ x, Reach H S g x ∧ x.holder = p

/-- The state of a party that has. -/
structure Stalled : Prop where
  conflicted : v.conflicted
  found : Contradictory H v.catalog
  forks : ∃ x, Reach H S g x ∧ Fork H S x

/-- Contradictions among the handovers of one who holds the office at some time
are about a handover that is due. -/
def Lawful : Prop :=
  ∀ r ∈ S, ∀ s ∈ S, Contradict H r s → (∃ x, Reach H S g x ∧ x.holder = H.signer r) →
    ∃ x, Reach H S g x ∧ x.holder = H.signer r ∧ Due H S x (H.epoch r)

variable {H S g turn k v}

theorem mem_walked_bounds {known : Set ρ} {r : ρ} (mem : r ∈ walked H known x)
    (path : Reach H known x y) (last : ∀ n, ¬ Due H known y n) :
    x.since < H.epoch r ∧ H.epoch r ≤ y.since := by
  obtain ⟨_, z, toZ, _, due⟩ := mem
  obtain ⟨w, _, since, rest⟩ := toZ.exists_follows_of_due path last due
  have := Reach.since_le toZ
  have := Reach.since_le rest
  have := due.1
  omega

/-- Handovers met on one walk do not contradict each other. -/
theorem walked_consistent {known : Set ρ} {r s : ρ} (left : r ∈ walked H known x)
    (right : s ∈ walked H known x) (path : Reach H known x y) (last : ∀ n, ¬ Due H known y n) :
    ¬ Contradict H r s := by
  rintro ⟨signer, epoch, heirs⟩
  obtain ⟨inLeft, z, toZ, signerZ, dueZ⟩ := left
  obtain ⟨inRight, w, toW, signerW, dueW⟩ := right
  obtain ⟨u, step, since, _⟩ := toZ.exists_follows_of_due path last dueZ
  exact heirs (step.2.1 r inLeft s inRight signerZ since.symm (signer.symm.trans signerZ)
    (epoch.symm.trans since.symm))

theorem not_due_of_last (last : ∀ z, ¬ Follows H S y z) (single : ¬ Fork H S y) :
    ∀ n, ¬ Due H S y n := by
  intro n due
  by_cases agree : Agree H S y.holder n
  · obtain ⟨r, held, signer, epoch⟩ := due.2.1
    exact last ⟨H.heir r, n⟩ ⟨due, agree, r, held, signer, epoch, rfl⟩
  · exact single ⟨n, due, agree⟩

section Step

variable (delivery : Delivery H S count batch turn) (current : k < count)
  (clear : Clear H S g turn k v)

include clear in
theorem Clear.start_le : g.since ≤ v.tenure.since := by
  rcases clear.place with path | passed
  · exact Reach.since_le path
  · exact (passed.since_lt Relation.ReflTransGen.refl).le

include delivery current clear

theorem known_subset : v.catalog ∪ batch k ⊆ S :=
  Set.union_subset clear.within (delivery.within k current)

/-- What is due by what the party knows is due by all handovers. -/
theorem due_of_known (toZ : Reach H S g z) (reached : v.tenure.since ≤ z.since)
    (due : Due H (v.catalog ∪ batch k) z n) : Due H S z n := by
  have inside := known_subset delivery current clear
  obtain ⟨above, ⟨s, known, signer, rfl⟩, least⟩ := due
  obtain ⟨m, dueM, le⟩ := exists_due (inside known) signer above
  rcases le.eq_or_lt with same | before
  · exact same ▸ dueM
  · -- an earlier handover of the signer has had its turn, so the party knows it
    obtain ⟨laterThan, ⟨r, inS, signer', rfl⟩, _⟩ := id dueM
    rcases known with held | inBatch
    · have := clear.bound s held
      omega
    · have turned := delivery.bySigner k current s inBatch r inS (signer'.trans signer.symm) before
      rcases turned.lt_or_eq with earlier | now
      · have := clear.bound r (clear.held r inS earlier z toZ signer' dueM)
        omega
      · have := least r (.inr (now ▸ (delivery.comes r inS).2)) signer' laterThan
        omega

/-- Walking what it knows, the party stays on the chain of all handovers until
that chain forks. -/
theorem place_of_walk (path : Reach H (v.catalog ∪ batch k) v.tenure z) :
    Reach H S g z ∨ Passed H S g z := by
  induction path with
  | refl => exact clear.place
  | @tail z w path step ih =>
    rcases ih with toZ | ⟨c, n, toC, fork, due, le⟩
    · have due := due_of_known delivery current clear toZ (Reach.since_le path) step.1
      by_cases agree : Agree H S z.holder w.since
      · obtain ⟨_, _, r, known, rest⟩ := step
        exact .inl (toZ.tail ⟨due, agree, r, known_subset delivery current clear known, rest⟩)
      · exact .inr ⟨z, w.since, toZ, ⟨w.since, due, agree⟩, due, le_refl _⟩
    · exact .inr ⟨c, n, toC, fork, due, le.trans step.1.1.le⟩

/-- The walk passes through every tenure of the chain up to where it is. -/
theorem walk_through (path : Reach H (v.catalog ∪ batch k) v.tenure z) (toX : Reach H S g x)
    (after : v.tenure.since < x.since) (upTo : x.since ≤ z.since) :
    Reach H (v.catalog ∪ batch k) v.tenure x := by
  induction path with
  | refl => omega
  | @tail z w path step ih =>
    rcases le_or_gt x.since z.since with early | late
    · exact ih early
    · rcases place_of_walk delivery current clear path with toZ | passed
      · have due := due_of_known delivery current clear toZ (Reach.since_le path) step.1
        have since : w.since = x.since :=
          le_antisymm (due_le_of_since_lt toZ toX late due) upTo
        rcases place_of_walk delivery current clear (path.tail step) with toW | passed
        · rw [← toW.eq_of_since_eq toX since]
          exact path.tail step
        · have := passed.since_lt toX
          omega
      · have := passed.since_lt toX
        omega

/-- The walk meets every handover of the chain up to where it is. -/
theorem mem_of_walk (path : Reach H (v.catalog ∪ batch k) v.tenure z) {r : ρ}
    (known : r ∈ v.catalog ∪ batch k) (toX : Reach H S g x) (signer : H.signer r = x.holder)
    (due : Due H S x (H.epoch r)) (upTo : H.epoch r ≤ z.since) : r ∈ v.kept H (batch k) := by
  have above := due.1
  rcases le_or_gt (H.epoch r) v.tenure.since with late | early
  · rcases known with held | inBatch
    · exact .inl (.inl held)
    · exact .inl (.inr ⟨inBatch, late, signer ▸ clear.seen x toX (by omega)⟩)
  · -- the party has not passed `x`, so `x` is where it stands or ahead of it
    have notPassed : ¬ Passed H S g v.tenure := fun passed => by
      have := passed.due_le toX due
      omega
    have onChain := clear.place.resolve_right notPassed
    have ahead : v.tenure.since ≤ x.since := by
      by_contra behind
      have := due_le_of_since_lt toX onChain (by omega) due
      omega
    have onWalk : Reach H (v.catalog ∪ batch k) v.tenure x := by
      rcases ahead.eq_or_lt with same | after
      · rw [← onChain.eq_of_since_eq toX same]
      · exact walk_through delivery current clear path toX after (by omega)
    obtain ⟨m, dueM, _⟩ := exists_due known signer above
    have := (due_of_known delivery current clear toX ahead dueM).unique due
    exact .inr ⟨known, x, onWalk, signer, this ▸ dueM⟩

/-- Without a fork, the handovers a party keeps are consistent. -/
theorem forks_of_contradictory (lawful : Lawful H S g)
    (found : Contradictory H (v.withLate H (batch k))) : ∃ x, Reach H S g x ∧ Fork H S x := by
  by_contra none
  have noFork : ∀ x, Reach H S g x → ¬ Fork H S x := fun x toX fork => none ⟨x, toX, fork⟩
  obtain ⟨r, inLeft, s, inRight, contradict⟩ := found
  have facts : ∀ r ∈ v.withLate H (batch k), r ∈ S ∧ H.signer r ∈ v.holders := by
    rintro r (held | ⟨inBatch, _, holder⟩)
    · exact ⟨clear.within held, clear.signed r held⟩
    · exact ⟨delivery.within k current inBatch, holder⟩
  obtain ⟨x, toX, holder, due⟩ := lawful r (facts r inLeft).1 s (facts s inRight).1 contradict
    (clear.rooted noFork _ (facts r inLeft).2)
  refine noFork x toX ⟨H.epoch r, due, fun agree => contradict.2.2 ?_⟩
  exact agree r (facts r inLeft).1 s (facts s inRight).1 holder.symm rfl
    (contradict.1.symm.trans holder.symm) contradict.2.1.symm

/-- A walk that ends at a fork has found its contradiction. -/
theorem stalled_of_fork (path : Reach H (v.catalog ∪ batch k) v.tenure y)
    (fork : Fork H (v.catalog ∪ batch k) y) :
    Stalled H S g
      ⟨y, v.holders ∪ {p | ∃ z, Reach H (v.catalog ∪ batch k) v.tenure z ∧ z.holder = p},
        v.kept H (batch k), Fork H (v.catalog ∪ batch k) y⟩ := by
  obtain ⟨n, due, disagree⟩ := id fork
  refine ⟨fork, ?_, ?_⟩
  · simp only [Agree, not_forall] at disagree
    obtain ⟨r, inLeft, s, inRight, signer, epoch, signer', epoch', heirs⟩ := disagree
    exact ⟨r, .inr ⟨inLeft, y, path, signer, epoch ▸ due⟩, s,
      .inr ⟨inRight, y, path, signer', epoch' ▸ due⟩, signer.trans signer'.symm,
      epoch.trans epoch'.symm, heirs⟩
  · rcases place_of_walk delivery current clear path with toY | ⟨c, _, toC, fork, _⟩
    · refine ⟨y, toY, n, due_of_known delivery current clear toY (Reach.since_le path) due, ?_⟩
      intro agree
      have inside := known_subset delivery current clear
      exact disagree fun r inLeft s inRight => agree r (inside inLeft) s (inside inRight)
    · exact ⟨c, toC, fork⟩

/-- At the end of a walk the party keeps every handover of the chain that has
had its turn.  The induction is on the epoch: the handover before, which gave
the signer the tenure, has had its turn too. -/
theorem held_of_walk (path : Reach H (v.catalog ∪ batch k) v.tenure y)
    (last : ∀ n, ¬ Due H (v.catalog ∪ batch k) y n)
    (bound : ∀ r ∈ v.kept H (batch k), H.epoch r ≤ y.since)
    (r : ρ) (inS : r ∈ S) (turned : turn r < k + 1) (x : Tenure π) (toX : Reach H S g x)
    (signer : H.signer r = x.holder) (due : Due H S x (H.epoch r)) : r ∈ v.kept H (batch k) := by
  induction epoch : H.epoch r using Nat.strong_induction_on generalizing r x with
  | _ n ih =>
    subst epoch
    have reached : x.since ≤ y.since := by
      rcases Relation.ReflTransGen.cases_tail toX with rfl | ⟨w, toW, step⟩
      · exact clear.start_le.trans (Reach.since_le path)
      · obtain ⟨dueW, _, s, inS', signer', epoch', _⟩ := step
        have before : H.epoch s < H.epoch r := epoch' ▸ due.1
        have kept := ih (H.epoch s) before s inS'
          ((delivery.inOrder r inS s inS' before).trans_lt turned) w toW signer' (epoch' ▸ dueW) rfl
        exact epoch' ▸ bound s kept
    rcases Nat.lt_succ_iff_lt_or_eq.mp turned with earlier | now
    · exact .inl (.inl (clear.held r inS earlier x toX signer due))
    · have known : r ∈ v.catalog ∪ batch k := .inr (now ▸ (delivery.comes r inS).2)
      apply mem_of_walk delivery current clear path known toX signer due
      rcases place_of_walk delivery current clear path with toY | passed
      · rcases reached.lt_or_eq with before | same
        · exact due_le_of_since_lt toX toY before due
        · -- the party stands at the signer's tenure and knows a handover of it
          rw [toX.eq_of_since_eq toY same] at signer due
          obtain ⟨m, dueM, _⟩ := exists_due known signer due.1
          exact absurd dueM (last m)
      · exact passed.due_le toX due

theorem clear_of_walk (consistent : ¬ Contradictory H (v.withLate H (batch k)))
    (path : Reach H (v.catalog ∪ batch k) v.tenure y) (single : ¬ Fork H (v.catalog ∪ batch k) y)
    (last : ∀ n, ¬ Due H (v.catalog ∪ batch k) y n) :
    Clear H S g turn (k + 1)
      ⟨y, v.holders ∪ {p | ∃ z, Reach H (v.catalog ∪ batch k) v.tenure z ∧ z.holder = p},
        v.kept H (batch k), Fork H (v.catalog ∪ batch k) y⟩ := by
  have inside := known_subset delivery current clear
  have onward := Reach.since_le path
  have lateBound : ∀ r ∈ v.withLate H (batch k), H.epoch r ≤ v.tenure.since := by
    rintro r (held | ⟨_, le, _⟩)
    · exact clear.bound r held
    · exact le
  have bound : ∀ r ∈ v.kept H (batch k), H.epoch r ≤ y.since := by
    rintro r (late | met)
    · exact (lateBound r late).trans onward
    · exact (mem_walked_bounds met path last).2
  refine ⟨single, ?_, ?_, place_of_walk delivery current clear path, ?_, bound, ?_,
    held_of_walk delivery current clear path last bound, ?_⟩
  · -- the late handovers lie up to the old tenure, the ones met on the walk after it
    rintro ⟨r, left | left, s, right | right, contradict⟩
    · exact consistent ⟨r, left, s, right, contradict⟩
    · have := lateBound r left
      have := (mem_walked_bounds right path last).1
      have := contradict.2.1
      omega
    · have := lateBound s right
      have := (mem_walked_bounds left path last).1
      have := contradict.2.1
      omega
    · exact walked_consistent left right path last contradict
  · rintro r ((held | ⟨inBatch, _⟩) | ⟨known, _⟩)
    · exact clear.within held
    · exact inside (.inr inBatch)
    · exact inside known
  · intro x toX upTo
    rcases le_or_gt x.since v.tenure.since with early | after
    · exact .inl (clear.seen x toX early)
    · exact .inr ⟨x, walk_through delivery current clear path toX after upTo, rfl⟩
  · rintro r ((held | ⟨_, _, holder⟩) | ⟨_, z, toZ, signer, _⟩)
    · exact .inl (clear.signed r held)
    · exact .inl holder
    · exact .inr ⟨z, toZ, signer.symm⟩
  · rintro noFork p (holder | ⟨z, toZ, rfl⟩)
    · exact clear.rooted noFork p holder
    · rcases place_of_walk delivery current clear toZ with onChain | ⟨c, _, toC, fork, _⟩
      · exact ⟨z, onChain, rfl⟩
      · exact absurd fork (noFork c toC)

end Step

theorem Stalled.receives (stalled : Stalled H S g v) {new : Set ρ} (step : Receives H v new v') :
    Stalled H S g v' := by
  obtain ⟨r, inLeft, s, inRight, contradict⟩ := stalled.found
  have found : Contradictory H (v.withLate H new) :=
    ⟨r, .inl inLeft, s, .inl inRight, contradict⟩
  cases step with
  | stalled _ => exact ⟨trivial, found, stalled.forks⟩
  | walks clear _ _ => exact absurd found clear

theorem Clear.receives (delivery : Delivery H S count batch turn) (lawful : Lawful H S g)
    (current : k < count) (clear : Clear H S g turn k v) (step : Receives H v (batch k) v') :
    Clear H S g turn (k + 1) v' ∨ Stalled H S g v' := by
  cases step with
  | stalled found =>
    exact .inr ⟨trivial, found, forks_of_contradictory delivery current clear lawful found⟩
  | @walks y consistent path last =>
    by_cases fork : Fork H (v.catalog ∪ batch k) y
    · exact .inr (stalled_of_fork delivery current clear path fork)
    · exact .inl (clear_of_walk delivery current clear consistent path fork
        (not_due_of_last last fork))

/-- A party that starts with the office at `g` and receives everything. -/
theorem receives_all {views : Nat → View ρ π} (delivery : Delivery H S count batch turn)
    (lawful : Lawful H S g) (first : views 0 = ⟨g, {g.holder}, ∅, False⟩)
    (steps : ∀ k < count, Receives H (views k) (batch k) (views (k + 1))) :
    ((views count).conflicted ∧ ∃ x, Reach H S g x ∧ Fork H S x) ∨
      (¬ (views count).conflicted ∧ (∀ x, Reach H S g x → ¬ Fork H S x) ∧
        Reach H S g (views count).tenure ∧ ∀ n, ¬ Due H S (views count).tenure n) := by
  have start : Clear H S g turn 0 (views 0) := by
    rw [first]
    refine ⟨id, ?_, Set.empty_subset S, .inl Relation.ReflTransGen.refl, ?_, ?_, ?_, ?_, ?_⟩
    · rintro ⟨r, none, _⟩
      exact none
    · intro x toX upTo
      exact (toX.eq_of_since_eq Relation.ReflTransGen.refl
        (le_antisymm upTo (Reach.since_le toX))) ▸ rfl
    · intro r none
      exact absurd none (Set.notMem_empty r)
    · intro r none
      exact absurd none (Set.notMem_empty r)
    · omega
    · rintro _ p rfl
      exact ⟨g, Relation.ReflTransGen.refl, rfl⟩
  have along : ∀ k ≤ count, Clear H S g turn k (views k) ∨ Stalled H S g (views k) := by
    intro k
    induction k with
    | zero => exact fun _ => .inl start
    | succ k ih =>
      intro within
      rcases ih (by omega) with clear | stalled
      · exact clear.receives delivery lawful (by omega) (steps k (by omega))
      · exact .inr (stalled.receives (steps k (by omega)))
  rcases along count (le_refl _) with clear | stalled
  · refine .inr ⟨clear.unconflicted, ?_⟩
    have kept : ∀ r ∈ S, ∀ x, Reach H S g x → H.signer r = x.holder → Due H S x (H.epoch r) →
        r ∈ (views count).catalog := fun r inS => clear.held r inS (delivery.comes r inS).1
    have noFork : ∀ x, Reach H S g x → ¬ Fork H S x := by
      rintro x toX ⟨n, due, disagree⟩
      simp only [Agree, not_forall] at disagree
      obtain ⟨r, inLeft, s, inRight, signer, epoch, signer', epoch', heirs⟩ := disagree
      exact clear.consistent ⟨r, kept r inLeft x toX signer (epoch ▸ due), s,
        kept s inRight x toX signer' (epoch' ▸ due), signer.trans signer'.symm,
        epoch.trans epoch'.symm, heirs⟩
    have onChain : Reach H S g (views count).tenure := by
      rcases clear.place with path | ⟨c, _, toC, fork, _⟩
      · exact path
      · exact absurd fork (noFork c toC)
    refine ⟨noFork, onChain, fun n due => ?_⟩
    obtain ⟨r, inS, signer, epoch⟩ := due.2.1
    have := clear.bound r (kept r inS _ onChain signer (epoch ▸ due))
    have := due.1
    omega
  · exact .inl ⟨stalled.conflicted, stalled.forks⟩

end Handover
