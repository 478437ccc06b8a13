/-
# Memory, one word at a time

An operation on shared memory is a sequence of reads and writes of single words, and others
may write between any two of them. `Access` is such an operation as a tree: after a read it
goes on with whatever word it read. `Access.run` performs it undisturbed, `Access.Amid` while
others write as they like, and both log or produce the same touches when nobody interferes.

* `Access.Amid.returns` — an operation whose touches all lie inside their views, whatever it
  reads, ends without a panic, whatever others write meanwhile.
* `View.Cut` — the views that are made out of a view, which lie inside it.
-/

import Conduit.Proofs.Memory.Strings

namespace Conduit

/-! ### Views inside a view -/

theorem View.window_ok {v w : View} {offset length : Nat} (made : v.window offset length = some w) :
    w.block = v.block ∧ v.start ≤ w.start ∧ w.start + w.words ≤ v.start + v.words := by
  unfold View.window at made
  split at made
  · cases made
  split at made
  · cases made
  rename_i fits
  injection made with made
  subst made
  exact ⟨rfl, Nat.le_add_right _ _, by simp only; omega⟩

/-- The views before and after a byte are windows. -/
theorem View.splitAt_ok {v low high : View} {mid : Nat} (split : v.splitAt mid = some (low, high)) :
    v.window 0 mid = some low ∧ v.window mid (v.bytes - mid) = some high := by
  unfold View.splitAt at split
  obtain ⟨low', first, split⟩ := Option.bind_eq_some_iff.mp split
  split at split
  · obtain ⟨high', second, split⟩ := Option.bind_eq_some_iff.mp split
    injection split with split
    injection split with lowEq highEq
    exact ⟨lowEq ▸ first, highEq ▸ second⟩
  · cases split

/-- The views that are made out of a view by taking windows, again and again. -/
inductive View.Cut (frame : View) : View → Prop where
  | whole : frame.Cut frame
  | window {v w : View} {offset length : Nat} (cut : frame.Cut v)
      (made : v.window offset length = some w) : frame.Cut w

/-- The words of one view are among those of another. -/
structure View.Inside (w v : View) : Prop where
  block : w.block = v.block
  start : v.start ≤ w.start
  stop : w.start + w.words ≤ v.start + v.words

theorem View.Inside.refl (v : View) : v.Inside v := ⟨rfl, Nat.le_refl _, Nat.le_refl _⟩

theorem View.Inside.trans {u v w : View} (inner : u.Inside w) (outer : w.Inside v) : u.Inside v :=
  ⟨inner.block.trans outer.block, Nat.le_trans outer.start inner.start,
    Nat.le_trans inner.stop outer.stop⟩

theorem View.Cut.inside {frame v : View} (cut : frame.Cut v) : v.Inside frame := by
  induction cut with
  | whole => exact .refl frame
  | window _ made ih =>
      obtain ⟨block, start, stop⟩ := View.window_ok made
      exact Inside.trans ⟨block, start, stop⟩ ih

theorem View.Cut.splitAt {frame v low high : View} {mid : Nat} (cut : frame.Cut v)
    (split : v.splitAt mid = some (low, high)) : frame.Cut low ∧ frame.Cut high :=
  ⟨cut.window (View.splitAt_ok split).1, cut.window (View.splitAt_ok split).2⟩

namespace Memory

variable {m m' : Memory} {v : View}

/-- What is cut out of a view that lies in memory lies in memory. -/
theorem Holds.cut {frame : View} (held : m.Holds frame) (cut : frame.Cut v) : m.Holds v := by
  have inside := cut.inside
  unfold Holds blockOf at held ⊢
  rw [inside.block]
  exact Nat.le_trans inside.stop held

/-- Whoever writes a word through whichever view moves nothing. -/
theorem grows_store {i : Nat} {x : UInt64} (stored : m.store v i x = .ok m') : m.Grows m' := by
  unfold store at stored
  split at stored
  · split at stored
    · injection stored with stored
      subst stored
      exact grows_put m v i x
    · cases stored
  · cases stored

/-- Memory differs at most in `count` words of a view from `first` on. -/
structure OnlyWithin (m m' : Memory) (v : View) (first count : Nat) : Prop where
  blocks : m'.blocks.size = m.blocks.size
  size : ∀ w, (m'.blockOf w).size = (m.blockOf w).size
  word : ∀ w i, v.block ≠ w.block ∨ w.start + i < v.start + first ∨
    v.start + first + count ≤ w.start + i → m'.word w i = m.word w i

theorem blockOf_put_size (m : Memory) (v w : View) (i : Nat) (x : UInt64) :
    ((m.put v i x).blockOf w).size = (m.blockOf w).size := by
  rw [blockOf_put]
  split
  · exact Array.size_setIfInBounds
  · rfl

theorem OnlyWithin.put (held : m.Holds v) {i : Nat} (hi : i < v.words) (x : UInt64) :
    m.OnlyWithin (m.put v i x) v i 1 where
  blocks := Array.size_modify
  size := fun w => blockOf_put_size m v w i x
  word := fun w j outside => by
    rw [word_put held hi, if_neg]
    rintro ⟨same, place⟩
    rcases outside with other | before | behind
    · exact other same
    · omega
    · omega

theorem OnlyWithin.putAll (held : m.Holds v) {i : Nat} {xs : List UInt64}
    (fits : i + xs.length ≤ v.words) : m.OnlyWithin (m.putAll v i xs) v i xs.length where
  blocks := by
    clear held fits
    induction xs generalizing m i with
    | nil => rfl
    | cons x xs ih => exact ih.trans Array.size_modify
  size := fun w => by
    clear held fits
    induction xs generalizing m i with
    | nil => rfl
    | cons x xs ih => exact ih.trans (blockOf_put_size m v w i x)
  word := fun w j outside => word_putAll_outside held fits outside

/-- A change inside some words, then a change inside others, both among the words from
`first` on. -/
theorem OnlyWithin.trans {m'' : Memory} {i j n k first count : Nat}
    (earlier : m.OnlyWithin m' v i n) (later : m'.OnlyWithin m'' v j k)
    (within : first ≤ i ∧ i + n ≤ first + count) (within' : first ≤ j ∧ j + k ≤ first + count) :
    m.OnlyWithin m'' v first count where
  blocks := later.blocks.trans earlier.blocks
  size := fun w => (later.size w).trans (earlier.size w)
  word := fun w at' outside => (later.word w at' (by omega)).trans (earlier.word w at' (by omega))

theorem OnlyWithin.refl (m : Memory) (v : View) (first count : Nat) :
    m.OnlyWithin m v first count where
  blocks := rfl
  size _ := rfl
  word _ _ _ := rfl

/-- Bytes that are written inside a view change no word outside it. -/
theorem OnlyWithin.putRun (held : m.Holds v) {offset : Nat} {bytes : List UInt8}
    (fits : offset + bytes.length ≤ v.bytes) :
    m.OnlyWithin (m.putRun v offset bytes) v 0 v.words := by
  induction bytes generalizing m offset with
  | nil => exact .refl m v 0 v.words
  | cons b bytes ih =>
      rw [List.length_cons] at fits
      have inside : offset / Word.size < v.words := div_lt_words (by omega)
      have later : (m.putByte v offset b).OnlyWithin (m.putRun v offset (b :: bytes)) v 0 v.words :=
        ih (held.putByte v offset b) (by omega)
      exact (OnlyWithin.put held inside _).trans later ⟨Nat.zero_le _, by omega⟩
        ⟨Nat.le_refl 0, Nat.le_refl _⟩

end Memory

/-! ### Operations word by word -/

/-- One word of a view is read or written. -/
inductive Touch where
  | read (v : View) (index : Nat) (word : UInt64)
  | write (v : View) (index : Nat) (word : UInt64)
  deriving DecidableEq

namespace Touch

/-- The view through which the word is touched. -/
def view : Touch → View
  | read v _ _ => v
  | write v _ _ => v

/-- The place of the word in the view. -/
def index : Touch → Nat
  | read _ i _ => i
  | write _ i _ => i

/-- Tells whether the word is written. -/
def isWrite : Touch → Bool
  | read .. => false
  | write .. => true

end Touch

/-- An operation that touches memory word by word. -/
inductive Access (α : Type) where
  | done (result : α)
  | load (v : View) (index : Nat) (next : UInt64 → Access α)
  | store (v : View) (index : Nat) (word : UInt64) (next : Access α)

namespace Access

variable {α : Type}

/-- Writes the words from an index of a view on. -/
def storeAll (v : View) (index : Nat) : List UInt64 → Access α → Access α
  | [], next => next
  | word :: rest, next => .store v index word (storeAll v (index + 1) rest next)

/-- Reads the words from an index of a view on. -/
def loadAll (v : View) (index : Nat) : (count : Nat) → (List UInt64 → Access α) → Access α
  | 0, next => next []
  | count + 1, next =>
      .load v index fun word => loadAll v (index + 1) count fun rest => next (word :: rest)

/-- Performs the operation undisturbed. -/
def run : Access α → Memory → Except Panic (α × Memory)
  | .done result, m => .ok (result, m)
  | .load v index next, m => do
      let word ← m.load v index
      (next word).run m
  | .store v index word next, m => do
      let m ← m.store v index word
      next.run m

/-- Performs the operation while others write: before each touch, and at the end, memory
may hold any words. The log is of what the operation itself touched. -/
inductive Amid : Access α → Memory → List Touch → Except Panic α → Memory → Prop where
  | done {result : α} {m : Memory} : Amid (.done result) m [] (.ok result) m
  | others {p : Access α} {m m₁ m₂ : Memory} {touches : List Touch} {result : Except Panic α}
      (grows : m.Grows m₁) (later : p.Amid m₁ touches result m₂) : p.Amid m touches result m₂
  | load {v : View} {index : Nat} {next : UInt64 → Access α} {m m' : Memory} {word : UInt64}
      {touches : List Touch} {result : Except Panic α} (loaded : m.load v index = .ok word)
      (later : (next word).Amid m touches result m') :
      Amid (.load v index next) m (.read v index word :: touches) result m'
  | store {v : View} {index : Nat} {word : UInt64} {next : Access α} {m m₁ m₂ : Memory}
      {touches : List Touch} {result : Except Panic α} (stored : m.store v index word = .ok m₁)
      (later : next.Amid m₁ touches result m₂) :
      Amid (.store v index word next) m (.write v index word :: touches) result m₂
  | loadPanics {v : View} {index : Nat} {next : UInt64 → Access α} {m : Memory} {e : Panic}
      (failed : m.load v index = .error e) : Amid (.load v index next) m [] (.error e) m
  | storePanics {v : View} {index : Nat} {word : UInt64} {next : Access α} {m : Memory} {e : Panic}
      (failed : m.store v index word = .error e) :
      Amid (.store v index word next) m [] (.error e) m

/-- What the operation may touch and answer, if the words it reads may be any. -/
inductive Path : Access α → List Touch → α → Prop where
  | done {result : α} : Path (.done result) [] result
  | load {v : View} {index : Nat} {next : UInt64 → Access α} {word : UInt64}
      {touches : List Touch} {result : α} (later : (next word).Path touches result) :
      Path (.load v index next) (.read v index word :: touches) result
  | store {v : View} {index : Nat} {word : UInt64} {next : Access α} {touches : List Touch}
      {result : α} (later : next.Path touches result) :
      Path (.store v index word next) (.write v index word :: touches) result

/-- Whatever the operation reads, it touches only words of views that lie in memory. -/
def Inside (m : Memory) : Access α → Prop
  | .done _ => True
  | .load v index next => (m.Holds v ∧ index < v.words) ∧ ∀ word, (next word).Inside m
  | .store v index _ next => (m.Holds v ∧ index < v.words) ∧ next.Inside m

variable {p : Access α} {m m' : Memory} {touches : List Touch}

theorem Inside.grows (inside : p.Inside m) (grows : m.Grows m') : p.Inside m' := by
  induction p with
  | done result => trivial
  | load v index next ih =>
      exact ⟨⟨grows.holds _ inside.1.1, inside.1.2⟩, fun word => ih word (inside.2 word)⟩
  | store v index word next ih =>
      exact ⟨⟨grows.holds _ inside.1.1, inside.1.2⟩, ih inside.2⟩

theorem Inside.storeAll {v : View} {next : Access α} (inside : next.Inside m) (held : m.Holds v)
    {index : Nat} {words : List UInt64} (fits : index + words.length ≤ v.words) :
    (storeAll v index words next).Inside m := by
  induction words generalizing index with
  | nil => exact inside
  | cons word rest ih =>
      rw [List.length_cons] at fits
      exact ⟨⟨held, by omega⟩, ih (by omega)⟩

theorem Inside.loadAll {v : View} {next : List UInt64 → Access α}
    (inside : ∀ words, (next words).Inside m) (held : m.Holds v) {index count : Nat}
    (fits : index + count ≤ v.words) : (loadAll v index count next).Inside m := by
  induction count generalizing index next with
  | zero => exact inside []
  | succ count ih =>
      exact ⟨⟨held, by omega⟩, fun word => ih (fun rest => inside (word :: rest)) (by omega)⟩

/-- An operation that stays inside never panics, whatever others write meanwhile. -/
theorem Amid.returns {result : Except Panic α} (amid : p.Amid m touches result m')
    (inside : p.Inside m) : m.Grows m' ∧ ∃ answer, result = .ok answer ∧ p.Path touches answer := by
  induction amid with
  | done => exact ⟨.refl _, _, rfl, .done⟩
  | others grows _ ih =>
      obtain ⟨later, answer, returns, path⟩ := ih (inside.grows grows)
      exact ⟨grows.trans later, answer, returns, path⟩
  | load _ _ ih =>
      obtain ⟨later, answer, returns, path⟩ := ih (inside.2 _)
      exact ⟨later, answer, returns, .load path⟩
  | store stored _ ih =>
      have grows := Memory.grows_store stored
      obtain ⟨later, answer, returns, path⟩ := ih (Inside.grows inside.2 grows)
      exact ⟨grows.trans later, answer, returns, .store path⟩
  | loadPanics failed =>
      rw [Memory.load_eq inside.1.1 inside.1.2] at failed
      cases failed
  | storePanics failed =>
      rw [Memory.store_eq inside.1.1 inside.1.2] at failed
      cases failed

/-- To be left alone is one of the things that others may do. -/
theorem amid_of_run {answer : α} (runs : p.run m = .ok (answer, m')) :
    ∃ touches, p.Amid m touches (.ok answer) m' := by
  induction p generalizing m with
  | done result =>
      injection runs with runs
      injection runs with result memory
      subst result memory
      exact ⟨[], .done⟩
  | load v index next ih =>
      rw [run] at runs
      cases loaded : m.load v index with
      | error e =>
          rw [loaded] at runs
          cases runs
      | ok word =>
          rw [loaded] at runs
          obtain ⟨touches, amid⟩ := ih word runs
          exact ⟨_, .load loaded amid⟩
  | store v index word next ih =>
      rw [run] at runs
      cases stored : m.store v index word with
      | error e =>
          rw [stored] at runs
          cases runs
      | ok memory =>
          rw [stored] at runs
          obtain ⟨touches, amid⟩ := ih runs
          exact ⟨_, .store stored amid⟩

/-! ### Runs of words -/

theorem run_storeAll (v : View) (index : Nat) (words : List UInt64) (next : Access α)
    (m : Memory) : (storeAll v index words next).run m =
      (m.storeAll v index words >>= fun m => next.run m) := by
  induction words generalizing m index with
  | nil => rfl
  | cons word rest ih =>
      simp only [storeAll, run, Memory.storeAll, ih, bind_assoc]

theorem run_loadAll (v : View) (index count : Nat) (next : List UInt64 → Access α)
    (m : Memory) : (loadAll v index count next).run m =
      (m.loadAll v index count >>= fun words => (next words).run m) := by
  induction count generalizing index next with
  | zero => rfl
  | succ count ih =>
      simp only [loadAll, run, Memory.loadAll, ih, bind_assoc, pure_bind]

theorem path_storeAll {v : View} {index : Nat} {words : List UInt64} {next : Access α} {answer : α}
    (path : (storeAll v index words next).Path touches answer) :
    ∃ later, next.Path later answer ∧
      touches = words.mapIdx (fun i word => .write v (index + i) word) ++ later := by
  induction words generalizing index touches with
  | nil => exact ⟨touches, path, rfl⟩
  | cons word rest ih =>
      cases path with
      | store path =>
          obtain ⟨later, ends, rfl⟩ := ih path
          refine ⟨later, ends, ?_⟩
          simp only [List.mapIdx_cons, Nat.add_zero, List.cons_append, Nat.add_assoc,
            Nat.add_comm 1]

theorem path_loadAll {v : View} {index count : Nat} {next : List UInt64 → Access α} {answer : α}
    (path : (loadAll v index count next).Path touches answer) :
    ∃ words later, words.length = count ∧ (next words).Path later answer ∧
      touches = words.mapIdx (fun i word => .read v (index + i) word) ++ later := by
  induction count generalizing index touches next with
  | zero => exact ⟨[], touches, rfl, path, rfl⟩
  | succ count ih =>
      cases path with
      | load path =>
          rename_i word _
          obtain ⟨words, later, length, ends, rfl⟩ := ih path
          refine ⟨word :: words, later, by rw [List.length_cons, length], ends, ?_⟩
          simp only [List.mapIdx_cons, Nat.add_zero, List.cons_append, Nat.add_assoc,
            Nat.add_comm 1]

end Access

end Conduit
