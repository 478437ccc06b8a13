/-
# Messages with a buffer page

Values that fit a message and the page are read back from it as they were written
(`encode_cases`), as long as the page is left alone in between. Whatever is written,
the tag comes first, and the capability that travels is one of the values.
-/

import Conduit.Call.Binding
import Conduit.Call.Paged
import Conduit.Proofs.Call.Transfer
import Conduit.Proofs.Memory.Strings

namespace Conduit.Paged

variable {t : MessageType} {tag : UInt64} {page : Option View} {m m' : Memory} {d d' : Draft}
  {value : Value} {values : List Value} {message : Message}

/-! ### What is added to a draft -/

theorem of_push {w : UInt64} (pushed : d.push w = .ok d') :
    d' = { d with words := d.words ++ [w] } := by
  unfold Draft.push at pushed
  split at pushed
  · exact (Except.ok.inj pushed).symm
  · cases pushed

/-- Words are only added at the end, and the capability is the one that was there or one of
the values. -/
structure Extends (values : List Value) (d d' : Draft) : Prop where
  words : ∃ words, d'.words = d.words ++ words
  cap : ∀ c, d'.cap = some c → d.cap = some c ∨ .cap c ∈ values

theorem Extends.refl (d : Draft) : Extends [] d d :=
  ⟨⟨[], (List.append_nil _).symm⟩, fun _ => .inl⟩

theorem Extends.cons {mid : Draft} (first : Extends [value] d mid) (later : Extends values mid d') :
    Extends (value :: values) d d' where
  words := by
    obtain ⟨one, ones⟩ := first.words
    obtain ⟨more, mores⟩ := later.words
    exact ⟨one ++ more, by rw [mores, ones, List.append_assoc]⟩
  cap c carried := by
    rcases later.cap c carried with before | mem
    · rcases first.cap c before with before | mem
      · exact .inl before
      · exact .inr (List.mem_cons.mpr (.inl (List.mem_singleton.mp mem)))
    · exact .inr (List.mem_cons_of_mem _ mem)

theorem extends_add (added : add t page value d m = .ok (.ok d', m')) : Extends [value] d d' := by
  cases value with
  | word w =>
      rw [of_push (congrArg Prod.fst (Except.ok.inj added))]
      exact ⟨⟨[w], rfl⟩, fun _ => .inl⟩
  | str s =>
      cases page with
      | none => cases added
      | some view =>
          simp only [add] at added
          split at added
          · cases added
          · obtain ⟨⟨fits, m₁⟩, -, added⟩ := of_bind_ok added
            cases fits with
            | false => cases added
            | true =>
                obtain ⟨d₁, pushed, rfl⟩ := of_map_ok (congrArg Prod.fst (Except.ok.inj added))
                rw [of_push pushed]
                exact ⟨⟨_, rfl⟩, fun _ => .inl⟩
  | cap c =>
      simp only [add] at added
      split at added
      · cases added
        refine ⟨⟨[], (List.append_nil _).symm⟩, fun other carried => .inr ?_⟩
        cases carried
        exact List.mem_singleton_self _
      · cases added

theorem extends_addAll (added : addAll t page values d m = .ok (.ok d', m')) :
    Extends values d d' := by
  induction values generalizing d m with
  | nil =>
      cases added
      exact .refl _
  | cons value rest ih =>
      obtain ⟨⟨first, m₁⟩, one, more⟩ := of_bind_ok added
      cases first with
      | error e => cases more
      | ok mid => exact (extends_add one).cons (ih more)

theorem extends_of_encode (encoded : encode t tag values page m = .ok (.ok message, m')) :
    ∃ d, Extends values { words := [tag] } d ∧ message = d.message := by
  obtain ⟨⟨draft, m₁⟩, added, finished⟩ := of_bind_ok encoded
  obtain ⟨d, rfl, same⟩ := of_map_ok (congrArg Prod.fst (Except.ok.inj finished))
  exact ⟨d, extends_addAll added, same.symm⟩

/-- The tag of a message is the first word. -/
theorem tag_encode (encoded : encode t tag values page m = .ok (.ok message, m')) :
    message.tag = tag := by
  obtain ⟨d, ⟨⟨words, same⟩, -⟩, rfl⟩ := extends_of_encode encoded
  unfold Message.tag Draft.message Letter.fit
  rw [same]
  rfl

/-- The capability of a message is one of its values. -/
theorem cap_of_encode {c : Cap} (encoded : encode t tag values page m = .ok (.ok message, m'))
    (carried : message.cap = some c) : .cap c ∈ values := by
  obtain ⟨d, drafted, rfl⟩ := extends_of_encode encoded
  rcases drafted.cap c carried with none | mem
  · cases none
  · exact mem

/-! ### Reading what was written -/

/-- The bytes that a value takes in a page. -/
def space : Value → Nat
  | .str s => (Utf8.encode s).length + 1
  | _ => 0

/-- The bytes that values take in a page together. -/
def spaceOf (values : List Value) : Nat := (values.map space).sum

/-- The number of values that take a word. -/
def wordsOf (values : List Value) : Nat := values.countP fun value => value.kind ≠ .cap

/-- The number of values that take the place of the capability. -/
def capsOf (values : List Value) : Nat := values.countP fun value => value.kind = .cap

section Counting

variable (w : UInt64) (s : String) (c : Cap) (values : List Value)

@[simp] theorem wordsOf_word : wordsOf (.word w :: values) = wordsOf values + 1 := by
  simp [wordsOf, Value.kind]

@[simp] theorem wordsOf_str : wordsOf (.str s :: values) = wordsOf values + 1 := by
  simp [wordsOf, Value.kind]

@[simp] theorem wordsOf_cap : wordsOf (.cap c :: values) = wordsOf values := by
  simp [wordsOf, Value.kind]

@[simp] theorem capsOf_word : capsOf (.word w :: values) = capsOf values := by
  simp [capsOf, Value.kind]

@[simp] theorem capsOf_str : capsOf (.str s :: values) = capsOf values := by
  simp [capsOf, Value.kind]

@[simp] theorem capsOf_cap : capsOf (.cap c :: values) = capsOf values + 1 := by
  simp [capsOf, Value.kind]

@[simp] theorem spaceOf_word : spaceOf (.word w :: values) = spaceOf values := Nat.zero_add _

@[simp] theorem spaceOf_cap : spaceOf (.cap c :: values) = spaceOf values := Nat.zero_add _

@[simp] theorem spaceOf_str :
    spaceOf (.str s :: values) = (Utf8.encode s).length + 1 + spaceOf values := rfl

end Counting

/-- The values can be added to a draft: there are words left for them, at most one is a
capability, no string has a zero byte, and the strings lie together in the page. -/
structure Fits (page : Option View) (d : Draft) (values : List Value) : Prop where
  words : d.words.length + wordsOf values ≤ Letter.width
  single : capsOf values ≤ 1
  free : 0 < capsOf values → d.cap = none
  nonzero : ∀ s, .str s ∈ values → 0 ∉ Utf8.encode s
  space : ∀ s, .str s ∈ values → ∃ view, page = some view ∧ d.offset + spaceOf values ≤ view.bytes

/-- What is there once values are added to a draft: their words and capability, and their
strings in the page, behind those that were there. -/
structure Written (t : MessageType) (page : Option View) (values : List Value) (d d' : Draft)
    (m m' : Memory) (added : List UInt64) : Prop where
  words : d'.words = d.words ++ added
  length : d'.words.length ≤ Letter.width
  carried : ∀ c, d.cap = some c → d'.cap = some c ∧ capsOf values = 0
  given : ∀ c, .cap c ∈ values → d'.cap = some c
  bare : d.cap = none → capsOf values = 0 → d'.cap = none
  below : ∀ view, page = some view → ∀ k < d.offset, m'.byte view k = m.byte view k
  reads : ∀ more cap, (∀ c, .cap c ∈ values → cap = some c) →
    read t page m' (values.map Value.kind) (added ++ more) cap = .ok (.ok values)

theorem written_nil (length : d.words.length ≤ Letter.width) :
    Written t page [] d d m m [] where
  words := (List.append_nil _).symm
  length := length
  carried _ same := ⟨same, rfl⟩
  given _ mem := absurd mem List.not_mem_nil
  bare none _ := none
  below _ _ _ _ := rfl
  reads _ _ _ := rfl

theorem putString_ok {view : View} {offset : Nat} {bytes : List UInt8} (held : m.Holds view)
    (fits : offset + bytes.length + 1 ≤ view.bytes) :
    putString m view offset bytes = .ok (true,
      (m.putRun view offset bytes).putRun view (offset + bytes.length) [0]) := by
  have last : offset + bytes.length + [(0 : UInt8)].length ≤ view.bytes := fits
  rw [putString, if_neg (by omega), Memory.writeBytes_eq held (by omega)]
  simp only [bind, Except.bind, if_true]
  exact Memory.writeBytes_eq (held.putRun view offset bytes) last

variable {rest : List Value} {added : List UInt64}

theorem Written.word {w : UInt64}
    (written : Written t page rest { d with words := d.words ++ [w] } d' m m' added) :
    Written t page (.word w :: rest) d d' m m' (w :: added) where
  words := by
    rw [written.words, List.append_assoc]
    rfl
  length := written.length
  carried c same := (capsOf_word w rest).symm ▸ written.carried c same
  given c mem := by
    rcases List.mem_cons.mp mem with same | mem
    · cases same
    · exact written.given c mem
  bare none count := written.bare none (capsOf_word w rest ▸ count)
  below := written.below
  reads more cap given := by
    have reads := written.reads more cap fun c mem => given c (List.mem_cons_of_mem _ mem)
    simp only [List.map_cons, Value.kind, List.cons_append, read, reads]
    rfl

theorem Written.cap {c : Cap} (free : d.cap = none)
    (written : Written t page rest { d with cap := some c } d' m m' added) :
    Written t page (.cap c :: rest) d d' m m' added where
  words := written.words
  length := written.length
  carried other same := by
    rw [free] at same
    cases same
  given other mem := by
    rcases List.mem_cons.mp mem with same | mem
    · cases same
      exact (written.carried c rfl).1
    · exact written.given other mem
  bare _ count := by
    rw [capsOf_cap] at count
    exact absurd count (Nat.succ_ne_zero _)
  below := written.below
  reads more carried given := by
    have first := given c List.mem_cons_self
    have none : ∀ other, .cap other ∈ rest → (none : Option Cap) = some other := by
      intro other mem
      have some := List.countP_eq_zero.mp (written.carried c rfl).2 _ mem
      simp [Value.kind] at some
    have reads := written.reads more Option.none none
    simp only [List.map_cons, Value.kind, first, read, reads]
    rfl

theorem Written.str {s : String} {view : View} (known : page = some view) (held : m.Holds view)
    (held' : m'.Holds view) (small : view.words < Memory.wordLimit)
    (fits : d.offset + (Utf8.encode s).length + 1 ≤ view.bytes) (nonzero : 0 ∉ Utf8.encode s)
    (written : Written t page rest
      { d with
        words := d.words ++ [UInt64.ofNat d.offset]
        offset := d.offset + (Utf8.encode s).length + 1 }
      d' ((m.putRun view d.offset (Utf8.encode s)).putRun view
        (d.offset + (Utf8.encode s).length) [0]) m' added) :
    Written t page (.str s :: rest) d d' m m' (UInt64.ofNat d.offset :: added) where
  words := by
    rw [written.words, List.append_assoc]
    rfl
  length := written.length
  carried c same := (capsOf_str s rest).symm ▸ written.carried c same
  given c mem := by
    rcases List.mem_cons.mp mem with same | mem
    · cases same
    · exact written.given c mem
  bare none count := written.bare none (capsOf_str s rest ▸ count)
  below other same k hk := by
    obtain rfl : other = view := Option.some.inj (same.symm.trans known)
    have held' := held.putRun other d.offset (Utf8.encode s)
    have last : d.offset + (Utf8.encode s).length + [(0 : UInt8)].length ≤ other.bytes := fits
    rw [written.below other same k (by simp only; omega),
      Memory.byte_putRun_outside held' last (.inl (by omega)),
      Memory.byte_putRun_outside held (by omega) (.inl hk)]
  reads more cap given := by
    have reads := written.reads more cap fun c mem => given c (List.mem_cons_of_mem _ mem)
    have there := (Memory.hasString_putRun held fits nonzero).congr
      fun k hk => written.below view known k hk
    have address : (UInt64.ofNat d.offset).toNat = d.offset := by
      rw [UInt64.toNat_ofNat']
      apply Nat.mod_eq_of_lt
      have bytes : view.bytes = view.words * 8 := rfl
      have limit : Memory.wordLimit = 2 ^ 60 := rfl
      omega
    simp only [List.map_cons, Value.kind, List.cons_append, known, read, address,
      Memory.readString_eq held' there, bind, Except.bind, Option.bind_some, Utf8.decode?_encode]
    rw [known] at reads
    rw [reads]
    rfl

theorem Fits.word {w : UInt64} (fits : Fits page d (.word w :: rest)) :
    d.words.length < Letter.width ∧ Fits page { d with words := d.words ++ [w] } rest := by
  have words := fits.words
  rw [wordsOf_word] at words
  refine ⟨by omega, ⟨?_, capsOf_word w rest ▸ fits.single, capsOf_word w rest ▸ fits.free, ?_, ?_⟩⟩
  · rw [List.length_append, List.length_singleton]
    omega
  · exact fun s mem => fits.nonzero s (List.mem_cons_of_mem _ mem)
  · exact fun s mem => spaceOf_word w rest ▸ fits.space s (List.mem_cons_of_mem _ mem)

theorem Fits.cap {c : Cap} (fits : Fits page d (.cap c :: rest)) :
    d.cap = none ∧ Fits page { d with cap := some c } rest := by
  have single := fits.single
  have free := fits.free
  rw [capsOf_cap] at single free
  have none : capsOf rest = 0 := by omega
  refine ⟨free (Nat.succ_pos _), ⟨wordsOf_cap c rest ▸ fits.words, by omega, ?_, ?_, ?_⟩⟩
  · rw [none]
    exact fun some => absurd some (Nat.lt_irrefl 0)
  · exact fun s mem => fits.nonzero s (List.mem_cons_of_mem _ mem)
  · exact fun s mem => spaceOf_cap c rest ▸ fits.space s (List.mem_cons_of_mem _ mem)

theorem Fits.str {s : String} (fits : Fits page d (.str s :: rest)) :
    ∃ view, page = some view ∧ 0 ∉ Utf8.encode s ∧
      d.offset + (Utf8.encode s).length + 1 ≤ view.bytes ∧ d.words.length < Letter.width ∧
      Fits page { d with
        words := d.words ++ [UInt64.ofNat d.offset]
        offset := d.offset + (Utf8.encode s).length + 1 } rest := by
  have words := fits.words
  rw [wordsOf_str] at words
  obtain ⟨view, known, inside⟩ := fits.space s List.mem_cons_self
  rw [spaceOf_str] at inside
  refine ⟨view, known, fits.nonzero s List.mem_cons_self, by omega, by omega,
    ⟨?_, capsOf_str s rest ▸ fits.single, capsOf_str s rest ▸ fits.free, ?_, ?_⟩⟩
  · rw [List.length_append, List.length_singleton]
    omega
  · exact fun s mem => fits.nonzero s (List.mem_cons_of_mem _ mem)
  · exact fun _ _ => ⟨view, known, by simp only; omega⟩

/-- What becomes of adding values: if it succeeds, they are written, and it succeeds if
they fit. -/
structure Added (t : MessageType) (page : Option View) (values : List Value) (d : Draft)
    (m : Memory) (result : Except Error Draft) (m' : Memory) : Prop where
  ran : addAll t page values d m = .ok (result, m')
  grows : m.Grows m'
  written : ∀ d', result = .ok d' → ∃ added, Written t page values d d' m m' added
  succeeds : Fits page d values → ∃ d', result = .ok d'

variable {result : Except Error Draft}

theorem Added.refused {e : Error} (ran : addAll t page values d m = .ok (.error e, m'))
    (grows : m.Grows m') (never : ¬ Fits page d values) :
    Added t page values d m (.error e) m' where
  ran := ran
  grows := grows
  written _ same := by cases same
  succeeds fits := absurd fits never

theorem Added.word {w : UInt64} (room : d.words.length < Letter.width)
    (later : Added t page rest { d with words := d.words ++ [w] } m result m') :
    Added t page (.word w :: rest) d m result m' where
  ran := by
    simp only [addAll, add, Draft.push, if_pos room, bind, Except.bind]
    exact later.ran
  grows := later.grows
  written d' same := by
    obtain ⟨added, written⟩ := later.written d' same
    exact ⟨_, written.word⟩
  succeeds fits := later.succeeds fits.word.2

theorem Added.cap {c : Cap} (free : d.cap = none)
    (later : Added t page rest { d with cap := some c } m result m') :
    Added t page (.cap c :: rest) d m result m' where
  ran := by
    simp only [addAll, add, free, bind, Except.bind]
    exact later.ran
  grows := later.grows
  written d' same := by
    obtain ⟨added, written⟩ := later.written d' same
    exact ⟨added, written.cap free⟩
  succeeds fits := later.succeeds fits.cap.2

theorem add_str {s : String} {view : View} (held : m.Holds view) (nonzero : 0 ∉ Utf8.encode s)
    (fits : d.offset + (Utf8.encode s).length + 1 ≤ view.bytes) :
    add t (some view) (.str s) d m = .ok ((d.push (UInt64.ofNat d.offset)).map fun d =>
        { d with offset := d.offset + (Utf8.encode s).length + 1 },
      (m.putRun view d.offset (Utf8.encode s)).putRun view
        (d.offset + (Utf8.encode s).length) [0]) := by
  have clean : ¬ (Utf8.encode s).contains 0 = true := by
    rw [List.contains_iff_mem]
    exact nonzero
  simp only [add, if_neg clean, putString_ok held fits, bind, Except.bind, if_true]
  unfold Draft.push
  by_cases room : d.words.length < Letter.width
  · simp only [if_pos room]
    rfl
  · simp only [if_neg room]
    rfl

theorem Added.str {s : String} {view : View} (known : page = some view) (held : m.Holds view)
    (small : view.words < Memory.wordLimit) (nonzero : 0 ∉ Utf8.encode s)
    (fits : d.offset + (Utf8.encode s).length + 1 ≤ view.bytes)
    (room : d.words.length < Letter.width)
    (later : Added t page rest
      { d with
        words := d.words ++ [UInt64.ofNat d.offset]
        offset := d.offset + (Utf8.encode s).length + 1 }
      ((m.putRun view d.offset (Utf8.encode s)).putRun view
        (d.offset + (Utf8.encode s).length) [0]) result m') :
    Added t page (.str s :: rest) d m result m' where
  ran := by
    rw [addAll, known, add_str held nonzero fits, Draft.push, if_pos room]
    simp only [Except.map, bind, Except.bind]
    rw [← known]
    exact later.ran
  grows := (Memory.grows_putRun_putRun _ _ _ _ _ _).trans later.grows
  written d' same := by
    obtain ⟨added, written⟩ := later.written d' same
    have held' := later.grows.holds view ((held.putRun _ _ _).putRun _ _ _)
    exact ⟨_, written.str known held held' small fits nonzero⟩
  succeeds fits := by
    obtain ⟨-, -, -, -, -, fits⟩ := fits.str
    exact later.succeeds fits

/-- A string is refused if it has a zero byte, or no space or no word is left for it. -/
theorem Added.str_refused {s : String} {view : View} (held : m.Holds view)
    (never : ¬ (0 ∉ Utf8.encode s ∧ d.offset + (Utf8.encode s).length + 1 ≤ view.bytes ∧
      d.words.length < Letter.width)) :
    ∃ e m', Added t (some view) (.str s :: rest) d m (.error e) m' := by
  have fitting : ¬ Fits (some view) d (.str s :: rest) := by
    intro fits
    obtain ⟨other, same, clean, inside, room, -⟩ := fits.str
    obtain rfl := Option.some.inj same
    exact never ⟨clean, inside, room⟩
  by_cases zero : (Utf8.encode s).contains 0 = true
  · refine ⟨.argMismatch t, m, .refused ?_ (.refl m) fitting⟩
    rw [addAll, add]
    simp only [if_pos zero, bind, Except.bind]
    rfl
  have clean : 0 ∉ Utf8.encode s := by rwa [List.contains_iff_mem] at zero
  by_cases inside : d.offset + (Utf8.encode s).length + 1 ≤ view.bytes
  · have full : ¬ d.words.length < Letter.width := fun room => never ⟨clean, inside, room⟩
    have grows := m.grows_putRun_putRun view d.offset (d.offset + (Utf8.encode s).length)
      (Utf8.encode s) [0]
    refine ⟨.notImplemented, _, .refused ?_ grows fitting⟩
    rw [addAll, add_str held clean inside, Draft.push, if_neg full]
    rfl
  · refine ⟨.stringTooLong, m, .refused ?_ (.refl m) fitting⟩
    rw [addAll, add]
    simp only [if_neg zero, putString, if_pos (Nat.lt_of_not_le inside), bind, Except.bind]
    rfl

/-- Adding values never panics. -/
theorem addAll_cases (values : List Value) (length : d.words.length ≤ Letter.width)
    (mapped : ∀ view, page = some view → m.Holds view ∧ view.words < Memory.wordLimit) :
    ∃ result m', Added t page values d m result m' := by
  induction values generalizing d m with
  | nil =>
      refine ⟨.ok d, m, rfl, .refl m, ?_, fun _ => ⟨d, rfl⟩⟩
      rintro d' same
      cases same
      exact ⟨[], written_nil length⟩
  | cons value rest ih =>
      cases value with
      | word w =>
          by_cases room : d.words.length < Letter.width
          · obtain ⟨result, m', later⟩ := ih (d := { d with words := d.words ++ [w] })
              (by simp only [List.length_append, List.length_singleton]; omega) mapped
            exact ⟨result, m', later.word room⟩
          · refine ⟨.error .notImplemented, m, .refused ?_ (.refl m) fun fits => room fits.word.1⟩
            simp only [addAll, add, Draft.push, if_neg room, bind, Except.bind]
            rfl
      | str s =>
          cases known : page with
          | none =>
              refine ⟨.error (.noBufferPage t), m, .refused rfl (.refl m) fun fits => ?_⟩
              obtain ⟨view, some, -⟩ := fits.str
              cases some
          | some view =>
              obtain ⟨held, small⟩ := mapped view known
              by_cases fits : 0 ∉ Utf8.encode s ∧
                  d.offset + (Utf8.encode s).length + 1 ≤ view.bytes ∧
                  d.words.length < Letter.width
              · obtain ⟨clean, inside, room⟩ := fits
                have grows := m.grows_putRun_putRun view d.offset
                  (d.offset + (Utf8.encode s).length) (Utf8.encode s) [0]
                obtain ⟨result, m', later⟩ := ih
                  (d := { d with
                    words := d.words ++ [UInt64.ofNat d.offset]
                    offset := d.offset + (Utf8.encode s).length + 1 })
                  (by simp only [List.length_append, List.length_singleton]; omega)
                  fun other same => ⟨grows.holds other (mapped other same).1,
                    (mapped other same).2⟩
                rw [← known]
                exact ⟨result, m', later.str known held small clean inside room⟩
              · obtain ⟨e, m', refused⟩ := Added.str_refused held fits
                exact ⟨.error e, m', refused⟩
      | cap c =>
          cases free : d.cap with
          | none =>
              obtain ⟨result, m', later⟩ := ih (d := { d with cap := some c }) length mapped
              exact ⟨result, m', later.cap free⟩
          | some other =>
              refine ⟨.error .notImplemented, m, .refused ?_ (.refl m) fun fits => ?_⟩
              · simp only [addAll, add, free, bind, Except.bind]
                rfl
              · cases free.symm.trans fits.cap.1

/-! ### Whole messages -/

/-- A message that holds values: they are read from it with the page as it is. -/
structure Holding (t : MessageType) (page : Option View) (values : List Value) (tag : UInt64)
    (message : Message) (m : Memory) : Prop where
  tag : message.tag = tag
  whole : message.letter.message = message
  bare : capsOf values = 0 → message.cap = none
  reads : decode t (values.map Value.kind) message page m = .ok (.ok values)

theorem Written.holding (written : Written t page values { words := [tag] } d m m' added) :
    Holding t page values tag d.message m' where
  tag := by
    unfold Message.tag Draft.message Letter.fit
    rw [written.words]
    rfl
  whole := congrArg Letter.message (Letter.letter_message ⟨Letter.fit d.words, d.cap⟩)
  bare := written.bare rfl
  reads := by
    have reads := written.reads (List.replicate (Letter.width - d.words.length) 0) d.cap
      written.given
    unfold decode Draft.message
    rw [Letter.toList_fit_append written.length]
    rw [written.words] at reads ⊢
    exact reads

/-- Writing a message never panics. If it succeeds, the message holds the values; it
succeeds if they fit. -/
theorem encode_cases (t : MessageType) (tag : UInt64) (values : List Value)
    (mapped : ∀ view, page = some view → m.Holds view ∧ view.words < Memory.wordLimit) :
    ∃ result m', encode t tag values page m = .ok (result, m') ∧ m.Grows m' ∧
      (∀ message, result = .ok message → Holding t page values tag message m') ∧
      (Fits page { words := [tag] } values → ∃ message, result = .ok message) := by
  obtain ⟨result, m', added⟩ : ∃ result m', Added t page values { words := [tag] } m result m' :=
    addAll_cases values (Nat.le_of_ble_eq_true rfl) mapped
  refine ⟨result.map Draft.message, m', ?_, added.grows, ?_, ?_⟩
  · rw [encode, added.ran]
    rfl
  · intro message same
    cases result with
    | error e => cases same
    | ok d =>
        obtain rfl : d.message = message := Except.ok.inj same
        obtain ⟨words, written⟩ := added.written d rfl
        exact written.holding
  · intro fits
    obtain ⟨d, rfl⟩ := added.succeeds fits
    exact ⟨d.message, rfl⟩

theorem capsOf_eq (values : List Value) : capsOf values = (values.map Value.kind).count .cap := by
  rw [List.count, List.countP_map]
  apply List.countP_congr
  intro value _
  simp

theorem wordsOf_eq (values : List Value) :
    wordsOf values = (values.map Value.kind).length - (values.map Value.kind).count .cap := by
  have total : values.length = capsOf values + wordsOf values := by
    rw [List.length_eq_countP_add_countP (fun value : Value => decide (value.kind = .cap))]
    congr 1
    apply List.countP_congr
    intro value _
    simp
  rw [← capsOf_eq, List.length_map, total, Nat.add_sub_cancel_left]

/-- The strings have no zero byte and lie together in the page. -/
def Tidy (page : Option View) (values : List Value) : Prop :=
  (∀ s, .str s ∈ values → 0 ∉ Utf8.encode s) ∧
    ∀ s, .str s ∈ values → ∃ view, page = some view ∧ spaceOf values ≤ view.bytes

theorem fits_iff (values : List Value) : Binding.fits (values.map Value.kind) = true ↔
    wordsOf values ≤ Binding.valueWords ∧ capsOf values ≤ 1 := by
  rw [Binding.fits, Bool.and_eq_true, decide_eq_true_eq, decide_eq_true_eq, ← wordsOf_eq,
    ← capsOf_eq]

/-- Values of the kinds of a simple binding fit if their strings do. -/
theorem Tidy.fits (tidy : Tidy page values) (simple : Binding.fits (values.map Value.kind) = true)
    (tag : UInt64) : Fits page { words := [tag] } values := by
  rw [fits_iff] at simple
  have words : Binding.valueWords + 1 = Letter.width := rfl
  refine ⟨?_, simple.2, fun _ => rfl, tidy.1, ?_⟩
  · rw [List.length_singleton]
    omega
  · intro s mem
    obtain ⟨view, known, space⟩ := tidy.2 s mem
    exact ⟨view, known, by rwa [Nat.zero_add]⟩

/-- A message with a capability holds one value that is a capability. -/
theorem Holding.costs (holding : Holding t page values tag message m)
    (simple : Binding.fits (values.map Value.kind) = true) (carries : message.cap.isSome = true) :
    capsOf values = 1 := by
  have single := ((fits_iff values).mp simple).2
  have some : capsOf values ≠ 0 := by
    intro none
    rw [holding.bare none] at carries
    cases carries
  omega

end Conduit.Paged
