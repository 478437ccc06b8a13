/-
# Runs that are delayed

A log has the turns of a run and the scenes in which they are taken. `Takes` says that a run
takes them there: it is a run with any turns that do the same in these scenes. `Padded`
relates the logs of a run and of the same run on the delayed machine: the second one has an
empty turn for each refusal that is met, and before each turn there are as many empty turns
as refusals were met by then. `Lags` says all this of what leads from one moment to another.
-/

import Conduit.Proofs.Delay.Machine
import Conduit.Task
import Mathlib.Data.List.Forall2

namespace Conduit

variable {δ ε σ : Type} {home : Cap}

/-! ### Turns -/

/-- A turn in which nobody acts. -/
def Turn.empty : Turn σ := fun scene => .ok () scene

/-- What the others do does not depend on how often the endpoint will still be refused. -/
def Turn.Blind (home : Cap) (turn : Turn σ) : Prop :=
  ∀ (n : Nat) (scene scene' : Scene σ) (late : Machine),
    Machine.Delayed home n scene.machine late → turn scene = .ok () scene' →
    ∃ late', turn ⟨late, scene.others⟩ = .ok () ⟨late', scene'.others⟩ ∧
      Machine.Delayed home n scene'.machine late'

/-- A turn, and the scene in which it is taken. -/
structure Passing (σ : Type) where
  turn : Turn σ
  found : Scene σ

/-- In the scenes of a log these turns do what the turns of the log do there. -/
def Replays (turns : List (Turn σ)) (log : List (Passing σ)) : Prop :=
  List.Forall₂ (fun turn passing => turn passing.found = passing.turn passing.found) turns log

theorem Replays.split {turns : List (Turn σ)} {log log' : List (Passing σ)}
    (replays : Replays turns (log ++ log')) :
    ∃ first later, turns = first ++ later ∧ Replays first log ∧ Replays later log' :=
  ⟨turns.take log.length, turns.drop log.length, (List.take_append_drop _ _).symm,
    List.forall₂_take_append _ _ _ replays, List.forall₂_drop_append _ _ _ replays⟩

theorem replays_turns (log : List (Passing σ)) : Replays (log.map Passing.turn) log := by
  induction log with
  | nil => exact .nil
  | cons passing log ih => exact .cons rfl ih

/-- The second log has the turns of the first one, each taken in the same scene but for the
refusals that are left, and an empty turn for each refusal that is met. The numbers of
refusals that are left are those before and after. -/
inductive Padded (home : Cap) : Nat → Nat → List (Passing σ) → List (Passing σ) → Prop
  | done (n : Nat) : Padded home n n [] []
  | turn {n n' : Nat} {m late : Machine} {log padded : List (Passing σ)} (turn : Turn σ)
      (others : σ) : Machine.Delayed home n m late → Padded home n n' log padded →
      Padded home n n' (⟨turn, m, others⟩ :: log) (⟨turn, late, others⟩ :: padded)
  | pad {n n' : Nat} {m late : Machine} {log padded : List (Passing σ)} (others : σ) :
      Machine.Delayed home n m late → Padded home n n' log padded →
      Padded home (n + 1) n' log (⟨Turn.empty, late, others⟩ :: padded)

namespace Padded

variable {n n' n'' : Nat} {log log' padded padded' : List (Passing σ)}

theorem length (pads : Padded home n n' log padded) : padded.length + n' = log.length + n := by
  induction pads with
  | done n => rfl
  | turn _ _ _ _ ih =>
      rw [List.length_cons, List.length_cons]
      omega
  | pad _ _ _ ih =>
      rw [List.length_cons]
      omega

theorem append (pads : Padded home n n' log padded) (pads' : Padded home n' n'' log' padded') :
    Padded home n n'' (log ++ log') (padded ++ padded') := by
  induction pads with
  | done n => exact pads'
  | turn turn others delayed _ ih => exact .turn turn others delayed (ih pads')
  | pad others delayed _ ih => exact .pad others delayed (ih pads')

end Padded

/-- The same moment on another machine and with other turns to come. -/
def Moment.on (now : Moment δ σ) (late : Machine) (turns : List (Turn σ)) : Moment δ σ :=
  ⟨now.self, ⟨late, now.scene.others⟩, turns⟩

namespace Task

open Machine (Delayed)

variable {n : Nat} {late : Machine} {now now' now'' : Moment δ σ}

/-- All turns to come are blind to the refusals. -/
def Unseen (home : Cap) (now : Moment δ σ) : Prop := ∀ turn ∈ now.turns, Turn.Blind home turn

/-! ### Runs with delays -/

/-- A run from one moment to another takes the turns of a log, each in its scene: it is a run
with any turns that do the same in these scenes, and whatever turns are to come after them, as
long as there are not fewer. -/
def Takes (log : List (Passing σ)) (now : Moment δ σ) (m : Machine) (now' : Moment δ σ)
    (m' : Machine) (runs : Moment δ σ → Moment δ σ → Prop) : Prop :=
  ∀ turns rest, Replays turns log → now'.turns.length ≤ rest.length →
    runs (now.on m (turns ++ rest)) (now'.on m' rest)

/-- How a run on the delayed machine, there, differs from the run here: it meets some refusals
and takes as many empty turns more. `runs` says what a run is; it is told how many refusals
are met. -/
structure LagsBy (home : Cap) (n : Nat) (late : Machine) (now now' : Moment δ σ)
    (runs : Nat → Moment δ σ → Moment δ σ → Prop) (met left : Nat) (late' : Machine)
    (log padded : List (Passing σ)) : Prop where
  /-- Each refusal is met, or is left. -/
  count : n = met + left
  /-- The turns that are taken here. -/
  turns : now.turns = log.map Passing.turn ++ now'.turns
  /-- The run here. -/
  here : Takes log now now.scene.machine now' now'.scene.machine (runs 0)
  /-- The turns that are taken there. -/
  pads : Padded home n left log padded
  /-- The run there. -/
  there : Takes padded now late now' late' (runs met)
  /-- Nothing but the refusals tells the two machines apart afterwards. -/
  delayed : Delayed home left now'.scene.machine late'

/-- What leads from one moment to another leads on the delayed machine, with an empty turn
for each refusal that is met, to the other moment with the refusals that are left. -/
def Lags (home : Cap) (n : Nat) (late : Machine) (now now' : Moment δ σ)
    (runs : Nat → Moment δ σ → Moment δ σ → Prop) : Prop :=
  ∃ met left late' log padded, LagsBy home n late now now' runs met left late' log padded

section Lags

variable {runs runs' : Nat → Moment δ σ → Moment δ σ → Prop}

/-- No turn passes. -/
theorem Lags.still {late' : Machine} (delayed : Delayed home n now'.scene.machine late')
    (turns : now'.turns = now.turns)
    (here : ∀ rest, runs 0 (now.on now.scene.machine rest) (now'.on now'.scene.machine rest))
    (there : ∀ rest, runs 0 (now.on late rest) (now'.on late' rest)) :
    Lags home n late now now' runs := by
  refine ⟨0, n, late', [], [], (Nat.zero_add n).symm, turns.symm, ?_, .done n, ?_, delayed⟩
  · rintro turns rest ⟨⟩ -
    exact here rest
  · rintro turns rest ⟨⟩ -
    exact there rest

theorem Lags.mono (lags : Lags home n late now now' runs)
    (delayed : Delayed home n now.scene.machine late)
    (imp : ∀ j k m turns last, Delayed home j now.scene.machine m →
      now.turns.length + k ≤ turns.length → runs k (now.on m turns) last →
      runs' k (now.on m turns) last) :
    Lags home n late now now' runs' := by
  obtain ⟨k, n', late', log, padded, count, turns, here, pads, there, delayed'⟩ := lags
  have length : now.turns.length = log.length + now'.turns.length := by
    rw [turns, List.length_append, List.length_map]
  have padding := pads.length
  refine ⟨k, n', late', log, padded, count, turns, ?_, pads, ?_, delayed'⟩
  · intro turns rest replays enough
    refine imp 0 0 _ _ _ (.refl now.scene.machine) ?_ (here turns rest replays enough)
    rw [List.length_append, replays.length_eq]
    omega
  · intro turns rest replays enough
    refine imp n k _ _ _ delayed ?_ (there turns rest replays enough)
    rw [List.length_append, replays.length_eq]
    omega

/-- What is done at once, before the run. -/
theorem Lags.after {between : Moment δ σ} {late' : Machine}
    (lags : Lags home n late' between now' runs) (turns : between.turns = now.turns)
    (here : ∀ k turns last, runs k (between.on between.scene.machine turns) last →
      runs' k (now.on now.scene.machine turns) last)
    (there : ∀ k turns last, runs k (between.on late' turns) last →
      runs' k (now.on late turns) last) :
    Lags home n late now now' runs' := by
  obtain ⟨k, n', late'', log, padded, count, same, plain, pads, lagging, delayed⟩ := lags
  exact ⟨k, n', late'', log, padded, count, turns.symm.trans same,
    fun turns rest replays enough => here 0 _ _ (plain turns rest replays enough), pads,
    fun turns rest replays enough => there k _ _ (lagging turns rest replays enough), delayed⟩

/-- One run after the other. -/
theorem Lags.trans (first : Lags home n late now now' runs)
    (later : ∀ n' late', Delayed home n' now'.scene.machine late' →
      Lags home n' late' now' now'' runs') :
    Lags home n late now now'' fun k start last => ∃ i j between, k = i + j ∧
      runs i start between ∧ runs' j between last := by
  obtain ⟨k, n', late', log, padded, count, turns, here, pads, there, delayed⟩ := first
  obtain ⟨k', n'', late'', log', padded', count', turns', here', pads', there', delayed'⟩ :=
    later n' late' delayed
  have length : now'.turns.length = log'.length + now''.turns.length := by
    rw [turns', List.length_append, List.length_map]
  have padding := pads'.length
  refine ⟨k + k', n'', late'', log ++ log', padded ++ padded', by omega, ?_, ?_,
    pads.append pads', ?_, delayed'⟩
  · rw [turns, turns', List.map_append, List.append_assoc]
  · intro turns rest replays enough
    obtain ⟨one, two, rfl, replays, replays'⟩ := replays.split
    rw [List.append_assoc]
    refine ⟨0, 0, _, rfl, here one (two ++ rest) replays ?_, here' two rest replays' enough⟩
    rw [List.length_append, replays'.length_eq]
    omega
  · intro turns rest replays enough
    obtain ⟨one, two, rfl, replays, replays'⟩ := replays.split
    rw [List.append_assoc]
    refine ⟨k, k', _, rfl, there one (two ++ rest) replays ?_, there' two rest replays' enough⟩
    rw [List.length_append, replays'.length_eq]
    omega

/-- One refusal more, and an empty turn for it. -/
theorem Lags.refused {late' : Machine} (lags : Lags home n late' now now' runs)
    (fewer : Delayed home n now.scene.machine late')
    (again : ∀ k turn turns last,
      turn ⟨late', now.scene.others⟩ = .ok () ⟨late', now.scene.others⟩ →
      runs k (now.on late' turns) last → runs (k + 1) (now.on late (turn :: turns)) last) :
    Lags home (n + 1) late now now' runs := by
  obtain ⟨k, n', late'', log, padded, count, turns, here, pads, there, delayed⟩ := lags
  refine ⟨k + 1, n', late'', log, ⟨Turn.empty, late', now.scene.others⟩ :: padded, by omega, turns,
    here, .pad _ fewer pads, ?_, delayed⟩
  rintro turns rest replays enough
  cases replays with
  | cons idle replays => exact again k _ _ _ idle (there _ rest replays enough)

/-- The turns that are left are among those that there were. -/
theorem Lags.unseen (lags : Lags home n late now now' runs) (unseen : Unseen home now) :
    Unseen home now' := by
  obtain ⟨k, n', late', log, padded, -, turns, -⟩ := lags
  intro turn mem
  exact unseen turn (turns ▸ List.mem_append_right _ mem)

end Lags

/-- What leads to a moment of a part of the party leads to a moment of the party. -/
theorem Lags.outside {part : δ → ε} {setPart : ε → δ → δ} {inner : Moment ε σ}
    {runs : Nat → Moment ε σ → Moment ε σ → Prop} {runs' : Nat → Moment δ σ → Moment δ σ → Prop}
    (lags : Lags home n late ⟨part now.self, now.scene, now.turns⟩ inner runs)
    (outer : ∀ k m turns last, runs k ⟨part now.self, ⟨m, now.scene.others⟩, turns⟩ last →
      runs' k (now.on m turns) ⟨setPart last.self now.self, last.scene, last.turns⟩) :
    Lags home n late now ⟨setPart inner.self now.self, inner.scene, inner.turns⟩ runs' := by
  obtain ⟨k, n', late', log, padded, count, turns, here, pads, there, delayed⟩ := lags
  exact ⟨k, n', late', log, padded, count, turns,
    fun turns rest replays enough => outer 0 _ _ _ (here turns rest replays enough), pads,
    fun turns rest replays enough => outer k _ _ _ (there turns rest replays enough), delayed⟩

end Task

end Conduit
