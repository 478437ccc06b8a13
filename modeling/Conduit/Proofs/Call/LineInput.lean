/-
# Lines of input

A line is read by asking for its characters one by one. `Answers` is a run of such requests and
the words that they were answered with, and a line takes from it exactly what belongs to it
(`Rpc.readLine_takes_line`): the characters before the first one that ends a line, and that one, or
fewer if no more were asked for. So lines that are read one after another are consecutive pieces of
what is answered, and only the characters between them are missing (`Cut`).

The program that reads a line is written here for any way to ask (`lineFrom`). Asked in the way of
`Rpc.call` it is the reader; asked in a way that also counts (`Task.tallied`), it shows how often a
line asks.
-/

import Conduit.Call.Interface
import Conduit.Proofs.Task.Ends
import Mathlib.Data.List.Forall2
import Mathlib.Data.List.TakeWhile

namespace Conduit

variable {η δ σ α : Type}

/-! ### Counting -/

/-- The moment with a number beside the state of the party. -/
def Moment.tally (now : Moment δ σ) (n : Nat) : Moment (δ × Nat) σ :=
  ⟨(now.self, n), now.scene, now.turns⟩

/-- The task, counted beside the state of its party. -/
def Task.tallied (task : Task δ σ α) : Task (δ × Nat) σ α := do
  Task.modifySelf fun (d, n) => (d, n + 1)
  Task.within Prod.fst (fun d s => (d, s.2)) task

theorem Task.tallied_apply (task : Task δ σ α) (now : Moment δ σ) (n : Nat) :
    tallied task (now.tally n) = match task now with
      | .ok a mid => .ok a (mid.tally (n + 1))
      | .error stop mid => .error stop (mid.tally (n + 1)) := by
  unfold tallied
  rw [modifySelf_bind]
  unfold within
  cases ran : task now with
  | ok a mid =>
      simp only [Moment.tally]
      rw [ran]
  | error stop mid =>
      simp only [Moment.tally]
      rw [ran]

namespace Rpc

variable {ask : Task δ σ (List Value)} {now mid last : Moment δ σ} {word : UInt64}
  {words : List UInt64} {bytes : List UInt8} {limit : Nat}

/-! ### A line from any source -/

/-- The word of an answer. -/
def wordFrom (ask : Task δ σ (List Value)) : Task δ σ UInt64 := do
  let rets ← ask
  Task.ofExcept (wordAt getChar rets 0)

/-- The characters up to the end of a line, or as many as asked for. -/
def lineBytesFrom (ask : Task δ σ (List Value)) : (limit : Nat) → Task δ σ (List UInt8)
  | 0 => return []
  | limit + 1 => do
      let c := (← wordFrom ask).toUInt8
      if endsLine c then return []
      return c :: (← lineBytesFrom ask limit)

/-- A line of at most `limit` characters. -/
def lineFrom (ask : Task δ σ (List Value)) (limit : Nat) : Task δ σ String := do
  if limit ≥ lineLimit then Task.panic .tooLarge
  return Utf8.decodeLossy (← lineBytesFrom ask limit)

theorem readLineBytes_eq (limit : Nat) :
    (readLineBytes limit : Task (Rpc η) σ (List UInt8)) =
      lineBytesFrom (call getChar []) limit := by
  induction limit with
  | zero => rfl
  | succ limit ih =>
      rw [readLineBytes, lineBytesFrom, ih]
      simp only [serialGet, wordFrom, bind_assoc, pure_bind]

theorem readLine_eq (limit : Nat) :
    (readLine limit : Task (Rpc η) σ String) = lineFrom (call getChar []) limit := by
  rw [readLine, lineFrom, readLineBytes_eq]

/-! ### What belongs to a line -/

/-- Words that are answered one after another. -/
inductive Answers (ask : Task δ σ (List Value)) :
    Moment δ σ → List UInt64 → Moment δ σ → Prop where
  | nil (now : Moment δ σ) : Answers ask now [] now
  | cons {now mid last : Moment δ σ} {word : UInt64} {words : List UInt64} :
      wordFrom ask now = .ok word mid → Answers ask mid words last →
      Answers ask now (word :: words) last

/-- The words that a line of at most so many characters takes, and the characters that it
consists of. -/
inductive IsLine : (limit : Nat) → List UInt64 → List UInt8 → Prop where
  | full : IsLine 0 [] []
  | ended {limit : Nat} {word : UInt64} : endsLine word.toUInt8 = true →
      IsLine (limit + 1) [word] []
  | more {limit : Nat} {word : UInt64} {words : List UInt64} {bytes : List UInt8} :
      endsLine word.toUInt8 = false → IsLine limit words bytes →
      IsLine (limit + 1) (word :: words) (word.toUInt8 :: bytes)

/-- How many characters stand before the first that ends a line. -/
def lineLength (words : List UInt64) : Nat :=
  (words.takeWhile fun word => !endsLine word.toUInt8).length

/-- The words are enough for a line of at most so many characters. -/
def Suffices (limit : Nat) (words : List UInt64) : Prop :=
  limit ≤ words.length ∨ ∃ word ∈ words, endsLine word.toUInt8 = true

/-- A line and what ended it: nothing if it has as many characters as were asked for, and else one
character that ends a line. -/
structure Cut (limit : Nat) (line rest : List UInt8) : Prop where
  plain : ∀ c ∈ line, endsLine c = false
  ends : line.length = limit ∧ rest = [] ∨
    line.length < limit ∧ ∃ c, endsLine c = true ∧ rest = [c]

theorem suffices_cons_iff : Suffices (limit + 1) (word :: words) ↔
    endsLine word.toUInt8 = true ∨ Suffices limit words := by
  simp only [Suffices, List.length_cons, Nat.add_le_add_iff_right, List.mem_cons,
    exists_eq_or_imp]
  exact or_left_comm

theorem not_suffices_nil : ¬ Suffices (limit + 1) [] := by
  rintro (few | ⟨word, mem, -⟩)
  · exact absurd few (by simp)
  · cases mem

/-- A line takes no more words than are enough for it. -/
theorem length_take_line (enough : Suffices limit words) :
    (words.take (min limit (lineLength words + 1))).length = min limit (lineLength words + 1) := by
  rw [List.length_take, Nat.min_eq_left]
  obtain many | ⟨word, mem, ends⟩ := enough
  · exact Nat.le_trans (Nat.min_le_left ..) many
  · have lead := List.takeWhile_prefix (l := words) fun word => !endsLine word.toUInt8
    refine Nat.le_trans (Nat.min_le_right ..) (Nat.lt_of_le_of_ne lead.length_le fun same => ?_)
    have plain := List.takeWhile_eq_self_iff.mp (lead.eq_of_length same) word mem
    simp [ends] at plain

/-- Of words that are enough for a line it takes those before its end and the end itself. -/
theorem isLine_take (enough : Suffices limit words) :
    IsLine limit (words.take (min limit (lineLength words + 1)))
      ((words.map UInt64.toUInt8).take (min limit (lineLength words))) := by
  induction limit generalizing words with
  | zero =>
      rw [Nat.zero_min, Nat.zero_min]
      exact .full
  | succ limit ih =>
      cases words with
      | nil => exact absurd enough not_suffices_nil
      | cons word words =>
          by_cases ends : endsLine word.toUInt8 = true
          · have none : lineLength (word :: words) = 0 := by simp [lineLength, ends]
            rw [none]
            simpa using IsLine.ended ends
          · have plain : endsLine word.toUInt8 = false := Bool.eq_false_iff.mpr ends
            have one : lineLength (word :: words) = lineLength words + 1 := by
              simp [lineLength, plain]
            rw [one, Nat.add_min_add_right, Nat.add_min_add_right]
            exact .more plain (ih ((suffices_cons_iff.mp enough).resolve_left ends))

theorem IsLine.cut (line : IsLine limit words bytes) :
    ∃ rest, words.map UInt64.toUInt8 = bytes ++ rest ∧ Cut limit bytes rest := by
  induction line with
  | full => exact ⟨[], rfl, List.forall_mem_nil _, .inl ⟨rfl, rfl⟩⟩
  | @ended limit word ends =>
      exact ⟨[word.toUInt8], rfl, List.forall_mem_nil _, .inr ⟨Nat.succ_pos limit, _, ends, rfl⟩⟩
  | @more limit word words bytes plain line ih =>
      obtain ⟨rest, whole, cut⟩ := ih
      refine ⟨rest, by rw [List.map_cons, whole]; rfl, ?_, ?_⟩
      · exact List.forall_mem_cons.mpr ⟨plain, cut.plain⟩
      · obtain ⟨long, none⟩ | ⟨short, one⟩ := cut.ends
        · exact .inl ⟨congrArg (· + 1) long, none⟩
        · exact .inr ⟨Nat.succ_lt_succ short, one⟩

/-! ### Answers -/

/-- Answers come one by one, so that after the first few of them there is a moment too. -/
theorem Answers.take (answers : Answers ask now words last) (n : Nat) :
    ∃ mid, Answers ask now (words.take n) mid := by
  induction answers generalizing n with
  | nil now =>
      rw [List.take_nil]
      exact ⟨now, .nil now⟩
  | @cons now mid last word words first later ih =>
      cases n with
      | zero => exact ⟨now, .nil now⟩
      | succ n =>
          obtain ⟨mid, answers⟩ := ih n
          exact ⟨mid, .cons first answers⟩

theorem Answers.append {words' : List UInt64} (first : Answers ask now words mid)
    (later : Answers ask mid words' last) : Answers ask now (words ++ words') last := by
  induction first with
  | nil => exact later
  | cons answered _ ih => exact .cons answered (ih later)

theorem wordFrom_tallied (ask : Task δ σ (List Value)) (now : Moment δ σ) (n : Nat) :
    wordFrom (Task.tallied ask) (now.tally n) = match wordFrom ask now with
      | .ok word mid => .ok word (mid.tally (n + 1))
      | .error stop mid => .error stop (mid.tally (n + 1)) := by
  have counted := Task.tallied_apply ask now n
  unfold wordFrom
  cases asked : ask now with
  | error stop mid =>
      rw [asked] at counted
      rw [Task.bind_error asked, Task.bind_error counted]
  | ok rets mid =>
      rw [asked] at counted
      rw [Task.bind_ok asked, Task.bind_ok counted]
      cases wordAt getChar rets 0 with
      | error e => rfl
      | ok word => rfl

/-- Counted, the answers are the same, and as many are counted as there are. -/
theorem Answers.tallied (answers : Answers ask now words last) (n : Nat) :
    Answers (Task.tallied ask) (now.tally n) words (last.tally (n + words.length)) := by
  induction answers generalizing n with
  | nil now => exact .nil _
  | @cons now mid last word words first later ih =>
      have counted := wordFrom_tallied ask now n
      rw [first] at counted
      rw [List.length_cons, Nat.add_comm words.length, ← Nat.add_assoc]
      exact .cons counted (ih (n + 1))

/-! ### Reading -/

/-- A line is read from the words that belong to it. -/
theorem lineBytesFrom_ok (line : IsLine limit words bytes) (answers : Answers ask now words last) :
    lineBytesFrom ask limit now = .ok bytes last := by
  induction line generalizing now with
  | full =>
      cases answers with
      | nil => rfl
  | ended ends =>
      cases answers with
      | cons first later =>
          cases later with
          | nil =>
              rw [lineBytesFrom, Task.bind_ok first, if_pos ends]
              rfl
  | more plain line ih =>
      cases answers with
      | cons first later =>
          rw [lineBytesFrom, Task.bind_ok first, if_neg (Bool.eq_false_iff.mp plain),
            Task.bind_ok (ih later)]
          rfl

/-- Words count by their low bytes, and what stands behind the end of a line is not asked for. -/
example (scene : Scene Unit) :
    lineBytesFrom (do
      let words ← Task.self
      Task.setSelf words.tail
      return [.word (words.headD 0)]) 5 ⟨[0x168, 0x69, 0x10d, 0x78], scene, []⟩ =
    .ok [0x68, 0x69] ⟨[0x78], scene, []⟩ := by cbv

/-- A request that fails before the line is complete ends the line in its way. -/
theorem lineBytesFrom_error {stop : Stop} {after : Moment δ σ}
    (answers : Answers ask now words last) (incomplete : ¬ Suffices limit words)
    (failed : wordFrom ask last = .error stop after) :
    lineBytesFrom ask limit now = .error stop after := by
  induction answers generalizing limit with
  | nil now =>
      cases limit with
      | zero => exact absurd (.inl (Nat.zero_le _)) incomplete
      | succ limit => rw [lineBytesFrom, Task.bind_error failed]
  | cons first later ih =>
      cases limit with
      | zero => exact absurd (.inl (Nat.zero_le _)) incomplete
      | succ limit =>
          rw [suffices_cons_iff, not_or] at incomplete
          rw [lineBytesFrom, Task.bind_ok first, if_neg incomplete.1,
            Task.bind_error (ih incomplete.2 failed)]

/-- From any moment on, a line is answered or some request for it fails. -/
theorem answered_or_failed (ask : Task δ σ (List Value)) (limit : Nat) (now : Moment δ σ) :
    (∃ words last, Answers ask now words last ∧ Suffices limit words) ∨
    ∃ words last stop after, Answers ask now words last ∧ ¬ Suffices limit words ∧
      wordFrom ask last = .error stop after := by
  induction limit generalizing now with
  | zero => exact .inl ⟨[], now, .nil now, .inl (Nat.zero_le _)⟩
  | succ limit ih =>
      cases asked : wordFrom ask now with
      | error stop after => exact .inr ⟨[], now, stop, after, .nil now, not_suffices_nil, asked⟩
      | ok word mid =>
          by_cases ends : endsLine word.toUInt8 = true
          · exact .inl ⟨[word], mid, .cons asked (.nil mid), suffices_cons_iff.mpr (.inl ends)⟩
          · rcases ih mid with
              ⟨words, last, answers, enough⟩ | ⟨words, last, stop, after, answers, few, failed⟩
            · exact .inl ⟨_, last, .cons asked answers, suffices_cons_iff.mpr (.inr enough)⟩
            · refine .inr ⟨_, last, stop, after, .cons asked answers, ?_, failed⟩
              exact fun enough => (suffices_cons_iff.mp enough).elim ends few

theorem lineFrom_ok (small : limit < lineLimit) (line : IsLine limit words bytes)
    (answers : Answers ask now words last) :
    lineFrom ask limit now = .ok (Utf8.decodeLossy bytes) last := by
  rw [lineFrom, if_neg (Nat.not_le_of_lt small)]
  exact Task.bind_ok (lineBytesFrom_ok line answers)

theorem lineFrom_error {stop : Stop} {after : Moment δ σ} (small : limit < lineLimit)
    (answers : Answers ask now words last) (incomplete : ¬ Suffices limit words)
    (failed : wordFrom ask last = .error stop after) :
    lineFrom ask limit now = .error stop after := by
  rw [lineFrom, if_neg (Nat.not_le_of_lt small)]
  exact Task.bind_error (lineBytesFrom_error answers incomplete failed)

/-- A line that was read took the words that belong to it. -/
theorem of_lineFrom_ok {text : String} (small : limit < lineLimit)
    (read : lineFrom ask limit now = .ok text last) :
    ∃ words bytes, Answers ask now words last ∧ IsLine limit words bytes ∧
      text = Utf8.decodeLossy bytes := by
  rcases answered_or_failed ask limit now with
    ⟨words, later, answers, enough⟩ | ⟨words, later, stop, after, answers, few, failed⟩
  · obtain ⟨mid, answers⟩ := answers.take (min limit (lineLength words + 1))
    have line := isLine_take enough
    cases (lineFrom_ok small line answers).symm.trans read
    exact ⟨_, _, answers, line, rfl⟩
  · cases (lineFrom_error small answers few failed).symm.trans read

/-! ### Lines of a party -/

/-- What it is to read lines from a moment on. -/
structure TakesLine (now : Moment (Rpc η) σ) : Prop where
  /-- It is the program that is counted below. -/
  program : ∀ limit, (readLine limit : Task (Rpc η) σ String) = lineFrom (call getChar []) limit
  /-- If the words that are answered are enough for the line, the first `min limit (k + 1)` of them
  are asked for and no more, where the line ends after `k` characters. Of these the line has as
  many as were asked for at most. -/
  line : ∀ {limit : Nat} {words : List UInt64} {last : Moment (Rpc η) σ}, limit < lineLimit →
    Answers (call getChar []) now words last → Suffices limit words →
      ∃ mid, Answers (call getChar []) now (words.take (min limit (lineLength words + 1))) mid ∧
        readLine limit now = .ok (Utf8.decodeLossy
          ((words.map UInt64.toUInt8).take (min limit (lineLength words)))) mid ∧
        lineFrom (Task.tallied (call getChar [])) limit (now.tally 0) = .ok (Utf8.decodeLossy
          ((words.map UInt64.toUInt8).take (min limit (lineLength words))))
            (mid.tally (min limit (lineLength words + 1)))
  /-- If a request fails before that, the line fails in the same way at once. -/
  failing : ∀ {limit : Nat} {words : List UInt64} {last after : Moment (Rpc η) σ} {stop : Stop},
    limit < lineLimit → Answers (call getChar []) now words last → ¬ Suffices limit words →
      serialGet last = .error stop after →
        readLine limit now = .error stop after ∧
        lineFrom (Task.tallied (call getChar [])) limit (now.tally 0) =
          .error stop (after.tally (words.length + 1))
  /-- One of the two is the case. -/
  either : ∀ limit : Nat,
    (∃ words last, Answers (call getChar []) now words last ∧ Suffices limit words) ∨
    ∃ words last stop after, Answers (call getChar []) now words last ∧
      ¬ Suffices limit words ∧ serialGet last = .error stop after
  /-- Lines that are read one after another are consecutive pieces of the characters that were
  answered, without what ended them. -/
  pieces : ∀ {limits : List Nat} {texts : List String} {last : Moment (Rpc η) σ},
    (∀ limit ∈ limits, limit < lineLimit) → limits.mapM readLine now = .ok texts last →
      ∃ (words : List UInt64) (lines : List (List UInt8 × List UInt8)),
        Answers (call getChar []) now words last ∧
        words.map UInt64.toUInt8 = lines.flatMap (fun line => line.1 ++ line.2) ∧
        List.Forall₂ (fun limit line => Cut limit line.1 line.2) limits lines ∧
        texts = lines.map fun line => Utf8.decodeLossy line.1

theorem serialGet_error {stop : Stop} {now after : Moment (Rpc η) σ} :
    serialGet now = .error stop after ↔ wordFrom (call getChar []) now = .error stop after := by
  have mapped : (serialGet : Task (Rpc η) σ UInt8) =
      wordFrom (call getChar []) >>= fun word => pure word.toUInt8 := by
    simp only [serialGet, wordFrom, bind_assoc]
  rw [mapped]
  cases asked : wordFrom (call getChar []) now with
  | ok word mid =>
      rw [Task.bind_ok asked]
      exact iff_of_false (by rintro ⟨⟩) (by rintro ⟨⟩)
  | error stop' mid =>
      rw [Task.bind_error asked]
      constructor
      · rintro ⟨⟩
        rfl
      · rintro ⟨⟩
        rfl

/-- Lines that are read one after another take their words one after another. -/
theorem of_readLines {limits : List Nat} {texts : List String} {now last : Moment (Rpc η) σ}
    (small : ∀ limit ∈ limits, limit < lineLimit)
    (read : limits.mapM readLine now = .ok texts last) :
    ∃ (words : List UInt64) (lines : List (List UInt8 × List UInt8)),
      Answers (call getChar []) now words last ∧
      words.map UInt64.toUInt8 = lines.flatMap (fun line => line.1 ++ line.2) ∧
      List.Forall₂ (fun limit line => Cut limit line.1 line.2) limits lines ∧
      texts = lines.map fun line => Utf8.decodeLossy line.1 := by
  induction limits generalizing now texts with
  | nil =>
      cases read
      exact ⟨[], [], .nil _, rfl, .nil, rfl⟩
  | cons limit limits ih =>
      rw [List.mapM_cons] at read
      obtain ⟨text, mid, first, read⟩ := Task.ok_of_bind read
      obtain ⟨others, late, later, read⟩ := Task.ok_of_bind read
      cases read
      obtain ⟨least, small⟩ := List.forall_mem_cons.mp small
      rw [readLine_eq] at first
      obtain ⟨words, bytes, answers, line, rfl⟩ := of_lineFrom_ok least first
      obtain ⟨words', lines, answers', whole, cuts, rfl⟩ := ih small later
      obtain ⟨rest, split, cut⟩ := line.cut
      refine ⟨words ++ words', (bytes, rest) :: lines, answers.append answers', ?_,
        .cons cut cuts, rfl⟩
      rw [List.map_append, split, whole, List.flatMap_cons]

/-- Reading a line asks for its characters and for what ends it, one after the other, and for
nothing else. -/
theorem readLine_takes_line (now : Moment (Rpc η) σ) : TakesLine now where
  program := readLine_eq
  line {limit words last} small answers enough := by
    obtain ⟨mid, answers⟩ := answers.take (min limit (lineLength words + 1))
    have line := isLine_take enough
    have counted := answers.tallied 0
    rw [length_take_line enough, Nat.zero_add] at counted
    rw [readLine_eq]
    exact ⟨mid, answers, lineFrom_ok small line answers, lineFrom_ok small line counted⟩
  failing {_ words last _ _} small answers few failed := by
    rw [serialGet_error] at failed
    have answersCounted := answers.tallied 0
    have failedCounted := wordFrom_tallied (call getChar []) last words.length
    rw [Nat.zero_add] at answersCounted
    rw [failed] at failedCounted
    rw [readLine_eq]
    exact ⟨lineFrom_error small answers few failed,
      lineFrom_error small answersCounted few failedCounted⟩
  either limit := by
    simp only [serialGet_error]
    exact answered_or_failed (call getChar []) limit now
  pieces small read := of_readLines small read

end Rpc

end Conduit
