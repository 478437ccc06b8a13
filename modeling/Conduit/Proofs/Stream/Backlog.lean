/-
# What the receiving end holds

The bytes that were received and not yet handed out are the ring followed by the
parked ones (`Stream.backlog`). Bytes are added behind it and taken from its front,
whether or not they fit the ring, in whatever portions: `backlog_stash`,
`backlog_unpark` and `drain_eq` are the laws. `absorb` adds what `scan` reads.
-/

import Conduit.Proofs.Stream.Ring
import Conduit.Proofs.Stream.Wire

namespace Conduit

namespace Stream

variable {s : Stream}

theorem backlog_stash (valid : s.ring.Valid) (bytes : List UInt8) :
    (s.stash bytes).backlog = s.backlog ++ bytes := by
  unfold stash
  cases parked : s.parked with
  | nil =>
      simp only [List.isEmpty_nil, if_true, backlog, parked, Ring.toList_write valid,
        List.append_assoc, List.take_append_drop, List.nil_append]
  | cons b rest =>
      simp only [List.isEmpty_cons, Bool.false_eq_true, if_false, backlog, parked,
        List.append_assoc]

theorem valid_stash (valid : s.ring.Valid) (bytes : List UInt8) : (s.stash bytes).ring.Valid := by
  unfold stash
  split
  · exact valid.after_write bytes
  · exact valid

theorem bytesLeft_stash (bytes : List UInt8) : (s.stash bytes).bytesLeft = s.bytesLeft := by
  unfold stash
  split
  · rfl
  · rfl

theorem transport_stash (bytes : List UInt8) : (s.stash bytes).transport = s.transport := by
  unfold stash
  split
  · rfl
  · rfl

theorem closed_stash (bytes : List UInt8) : (s.stash bytes).closed = s.closed := by
  unfold stash
  split
  · rfl
  · rfl

theorem backlog_unpark (valid : s.ring.Valid) : s.unpark.backlog = s.backlog := by
  simp only [unpark, backlog, Ring.toList_write valid, List.append_assoc, List.take_append_drop]

/-- What is taken out is what was held longest. -/
theorem backlog_drainWithin (valid : s.ring.Valid) (bound limit : Nat) :
    s.backlog = (drainWithin bound limit s).1 ++ (drainWithin bound limit s).2.backlog := by
  induction bound generalizing s limit with
  | zero => rfl
  | succ bound ih =>
      have read : s.backlog =
          (s.ring.read limit).1 ++ ({ s with ring := (s.ring.read limit).2 } : Stream).backlog := by
        rw [backlog, Ring.toList_read valid limit, List.append_assoc]
        rfl
      simp only [drainWithin]
      split
      · exact read
      · have valid' := valid.after_read limit
        have rest := ih (s := ({ s with ring := (s.ring.read limit).2 } : Stream).unpark)
          (valid'.after_write _) (limit - (s.ring.read limit).1.length)
        rw [List.append_assoc, ← rest, backlog_unpark valid']
        exact read

theorem valid_drainWithin (valid : s.ring.Valid) (bound limit : Nat) :
    (drainWithin bound limit s).2.ring.Valid := by
  induction bound generalizing s limit with
  | zero => exact valid
  | succ bound ih =>
      simp only [drainWithin]
      split
      · exact valid.after_read limit
      · exact ih ((valid.after_read limit).after_write _) _

/-- Taking bytes out changes nothing else. -/
theorem drainWithin_keeps (bound limit : Nat) (s : Stream) :
    (drainWithin bound limit s).2.bytesLeft = s.bytesLeft ∧
      (drainWithin bound limit s).2.transport = s.transport ∧
      (drainWithin bound limit s).2.closed = s.closed := by
  induction bound generalizing s limit with
  | zero => exact ⟨rfl, rfl, rfl⟩
  | succ bound ih =>
      simp only [drainWithin]
      split
      · exact ⟨rfl, rfl, rfl⟩
      · exact ih _ _

theorem length_backlog (s : Stream) : s.backlog.length = s.buffered := by
  rw [backlog, List.length_append, Ring.length_toList, buffered]

/-- Parked bytes move up into an empty ring. -/
theorem size_unpark (valid : s.ring.Valid) (empty : s.ring.size = 0) (parked : s.parked ≠ []) :
    s.unpark.ring.size ≠ 0 := by
  have room := valid.room
  have some := List.length_pos_iff.mpr parked
  have moved : (s.ring.write s.parked).1 = min s.parked.length (s.ring.storage.size - 1) := by
    rw [Ring.write, Ring.free, Ring.capacity, empty, Nat.sub_zero]
  have held : s.unpark.ring.toList.length =
      (s.ring.toList ++ s.parked.take (s.ring.write s.parked).1).length :=
    congrArg List.length (Ring.toList_write valid s.parked)
  rw [Ring.length_toList, List.length_append, Ring.length_toList, List.length_take, moved] at held
  omega

/-- As many bytes are taken out as are asked for and held: each round but the first finds
the ring filled. -/
theorem length_drainWithin (valid : s.ring.Valid) (bound limit : Nat)
    (enough : limit < bound ∨ limit ≤ bound ∧ s.ring.size ≠ 0) :
    (drainWithin bound limit s).1.length = min limit s.backlog.length := by
  induction bound generalizing s limit with
  | zero =>
      obtain rfl : limit = 0 := by omega
      rw [Nat.zero_min]
      rfl
  | succ bound ih =>
      have held : s.backlog.length = s.ring.size + s.parked.length := s.length_backlog
      have length : (s.ring.read limit).1.length = min limit s.ring.size := by
        rw [Ring.read, List.length_map, List.length_range]
      simp only [drainWithin]
      split
      · rename_i last
        rw [length, held]
        rw [length] at last
        rcases last with full | none
        · omega
        · rw [List.isEmpty_iff.mp none, List.length_nil, Nat.add_zero]
      · rename_i more
        rw [not_or, length, List.isEmpty_iff] at more
        have valid' := valid.after_read limit
        have rest := congrArg List.length (Ring.toList_read valid limit)
        rw [List.length_append, Ring.length_toList, Ring.length_toList, length] at rest
        have empty : (s.ring.read limit).2.size = 0 := by omega
        have filled : ({ s with ring := (s.ring.read limit).2 } : Stream).unpark.ring.size ≠ 0 :=
          size_unpark valid' empty more.2
        have further := ih (s := ({ s with ring := (s.ring.read limit).2 } : Stream).unpark)
          (valid'.after_write _) (limit - (s.ring.read limit).1.length) (by omega)
        rw [backlog_unpark valid', length_backlog, buffered] at further
        rw [List.length_append, further, held]
        simp only [empty, length]
        omega

/-- Taking bytes out splits what is held. -/
theorem drain_eq (valid : s.ring.Valid) (limit : Nat) :
    (s.drain limit).1 = s.backlog.take limit ∧ (s.drain limit).2.backlog = s.backlog.drop limit := by
  have split : s.backlog = (s.drain limit).1 ++ (s.drain limit).2.backlog :=
    backlog_drainWithin valid (limit + 1) limit
  have length : (s.drain limit).1.length = min limit s.backlog.length :=
    length_drainWithin valid (limit + 1) limit (.inl (Nat.lt_succ_self limit))
  have taken : s.backlog.take limit = s.backlog.take (s.drain limit).1.length := by
    rw [length]
    exact List.take_eq_take_min
  have dropped : s.backlog.drop limit = s.backlog.drop (s.drain limit).1.length := by
    rw [length]
    rcases Nat.le_total limit s.backlog.length with some | all
    · rw [Nat.min_eq_left some]
    · rw [Nat.min_eq_right all, List.drop_of_length_le all, List.drop_length]
  constructor
  · conv_rhs => rw [taken, split, List.take_left]
  · conv_rhs => rw [dropped, split, List.drop_left]

/-! ### One message -/

theorem backlog_take (valid : s.ring.Valid) (payload : List UInt64) :
    (s.take payload).backlog = s.backlog ++ (portion s.bytesLeft payload).1 :=
  backlog_stash (s := { s with bytesLeft := (portion s.bytesLeft payload).2 }) valid _

theorem valid_take (valid : s.ring.Valid) (payload : List UInt64) : (s.take payload).ring.Valid :=
  valid_stash (s := { s with bytesLeft := (portion s.bytesLeft payload).2 }) valid _

theorem bytesLeft_take (payload : List UInt64) :
    (s.take payload).bytesLeft = (portion s.bytesLeft payload).2 := bytesLeft_stash _

theorem transport_take (payload : List UInt64) : (s.take payload).transport = s.transport :=
  transport_stash _

theorem closed_take (payload : List UInt64) : (s.take payload).closed = s.closed := closed_stash _

/-- What a message does: it announces the end, starts a byte string, or goes on with one. -/
theorem absorb_cases (s : Stream) (words : List UInt64) :
    ((s.absorb words).2 = { s with closed := true } ∧ scan s.bytesLeft words = ([], s.bytesLeft)) ∨
    ∃ left payload, (s.absorb words).2 = { s with bytesLeft := left }.take payload ∧
      scan s.bytesLeft words = portion left payload := by
  unfold absorb scan
  by_cases between : s.bytesLeft = 0
  · by_cases mark : words.headD 0 = closeMark
    · simp only [if_pos between, if_pos mark]
      exact .inl ⟨trivial, by rw [between]⟩
    · simp only [if_pos between, if_neg mark]
      exact .inr ⟨_, _, rfl, rfl⟩
  · simp only [if_neg between]
    exact .inr ⟨s.bytesLeft, words, rfl, rfl⟩

/-- Between byte strings the mark of the end is all that a message says. -/
theorem absorb_mark {words : List UInt64} (between : s.bytesLeft = 0)
    (mark : words.headD 0 = closeMark) :
    s.absorb words = (.close, { s with closed := true }) := by
  rw [absorb, if_pos between, if_pos mark]

/-- Between byte strings a message says how long the next one is. -/
theorem absorb_length {words : List UInt64} (between : s.bytesLeft = 0)
    (mark : words.headD 0 ≠ closeMark) : s.absorb words =
      (.start (words.headD 0), { s with bytesLeft := words.headD 0 }.take words.tail) := by
  rw [absorb, if_pos between, if_neg mark]

/-- A message adds the bytes that it holds. -/
theorem backlog_absorb (valid : s.ring.Valid) (words : List UInt64) :
    (s.absorb words).2.backlog = s.backlog ++ (scan s.bytesLeft words).1 := by
  rcases s.absorb_cases words with ⟨after, scanned⟩ | ⟨left, payload, after, scanned⟩
  · rw [after, scanned, List.append_nil]
    rfl
  · rw [after, scanned]
    exact backlog_take (s := { s with bytesLeft := left }) valid payload

theorem bytesLeft_absorb (words : List UInt64) :
    (s.absorb words).2.bytesLeft = (scan s.bytesLeft words).2 := by
  rcases s.absorb_cases words with ⟨after, scanned⟩ | ⟨left, payload, after, scanned⟩
  · rw [after, scanned]
  · rw [after, scanned, bytesLeft_take]

theorem valid_absorb (valid : s.ring.Valid) (words : List UInt64) :
    (s.absorb words).2.ring.Valid := by
  rcases s.absorb_cases words with ⟨after, -⟩ | ⟨left, payload, after, -⟩
  · rw [after]
    exact valid
  · rw [after]
    exact valid_take (s := { s with bytesLeft := left }) valid payload

theorem transport_absorb (words : List UInt64) : (s.absorb words).2.transport = s.transport := by
  rcases s.absorb_cases words with ⟨after, -⟩ | ⟨left, payload, after, -⟩
  · rw [after]
  · rw [after, transport_take]

/-- A message closes the stream if it stands between byte strings and has the mark of the end. -/
theorem closed_absorb (words : List UInt64) : (s.absorb words).2.closed =
    (s.closed || (s.bytesLeft == 0 && words.headD 0 == closeMark)) := by
  unfold absorb
  by_cases between : s.bytesLeft = 0
  · by_cases mark : words.headD 0 = closeMark
    · simp only [if_pos between, if_pos mark, beq_iff_eq.mpr between, beq_iff_eq.mpr mark,
        Bool.and_self, Bool.or_true]
    · simp only [if_pos between, if_neg mark, beq_eq_false_iff_ne.mpr mark, Bool.and_false,
        Bool.or_false]
      exact closed_take (s := { s with bytesLeft := _ }) _
  · simp only [if_neg between, beq_eq_false_iff_ne.mpr between, Bool.false_and, Bool.or_false]
    exact closed_take _

end Stream

end Conduit
