import Y86.Proofs.Arithmetic
import Y86.Proofs.Machine.Frame
import Y86.Proofs.Machine.Steps

/-!
# Compare and branch

A program compares two numbers by taking one off the other, and then jumps or moves on a condition. The flags of the
subtraction tell how the numbers compare as signed words (`Flags.Tells`), although the difference itself may not be a
word: where it is none, the sign of the result is wrong, and the overflow flag says so.

There is one exception. The unit negates the number that is taken off, and adds. The least word has no negative word; it
is left as it is, so that what is added is `2 ^ 64` less than it should be, and the rule of signs, which looks at the
summands only, takes no notice. After such a subtraction the overflow flag is wrong whatever the other number is, and
that number is said to be less than the least word (`Flags.ofDifference_least`). So the flags tell the truth if and
only if the number that was taken off is not the least word (`Flags.tells_ofDifference_iff`).

The flags stay until there is arithmetic again, and all jumps and moves in between go by them
(`Machine.compare_and_branch`).
-/

namespace Y86

/-- The least word. -/
abbrev Word.least : Int := -9223372036854775808

/-- What a condition says of two numbers that were compared: that `b` is less than `a`, and so on. -/
def Condition.compares (c : Condition) (b a : Int) : Bool :=
  match c with
  | always => true
  | le => b ≤ a
  | l => b < a
  | e => b = a
  | ne => b ≠ a
  | ge => a ≤ b
  | g => a < b

namespace Flags

/-- The flags after `a` was taken off `b`. -/
def ofDifference (a b : Int) : Flags :=
  .ofResult (Arithmetic.sub.compute a b).1 (Arithmetic.sub.compute a b).2

/-- The flags tell whether the exact difference of `b` and `a` is a word, and how `b` compares with `a`. -/
structure Tells (f : Flags) (b a : Int) : Prop where
  overflow : f.overflow = true ↔ ¬Word.InRange (b - a)
  holds : ∀ c : Condition, c.holds f = c.compares b a

variable {x y a b : Int}

/-! ### The flags of a sum -/

/-- The sign flag differs from the overflow flag exactly if the exact sum is negative. -/
theorem sign_bne_overflow (hx : Word.InRange x) (hy : Word.InRange y) :
    (decide (Word.signed (x + y) < 0) != Arithmetic.sumOverflows x y (Word.signed (x + y))) = decide (x + y < 0) := by
  rw [Arithmetic.sumOverflows_eq hx hy]
  have hword := Word.signed_eq (x + y)
  unfold Word.InRange at hx hy
  by_cases hexact : x + y = Word.signed (x + y)
  · -- the sum is a word, and has its own sign
    rw [decide_eq_false (not_not.2 hexact), ← hexact, Bool.bne_false]
  · -- it is off by `2 ^ 64`, which turns the sign round
    rw [decide_eq_true hexact, Bool.bne_true, ← decide_not]
    refine decide_eq_decide.2 ?_
    split at hword <;> omega

/-- A difference of words is zero exactly if its word is. -/
theorem signed_sub_eq_zero_iff (ha : Word.InRange a) (hb : Word.InRange b) : Word.signed (b - a) = 0 ↔ b = a := by
  have hword := Word.signed_eq (b - a)
  unfold Word.InRange at ha hb
  split at hword <;> omega

/-! ### The flags of a difference -/

theorem zero_ofDifference (ha : Word.InRange a) (hb : Word.InRange b) : (ofDifference a b).zero = decide (b = a) := by
  change decide ((Arithmetic.sub.compute a b).1 = 0) = decide (b = a)
  rw [Arithmetic.compute_fst]
  exact decide_eq_decide.2 (signed_sub_eq_zero_iff ha hb)

/-- What decides about less and greater is the sum of `b` and the word that `a` is negated to. -/
theorem sign_bne_overflow_ofDifference (a : Int) (hb : Word.InRange b) :
    ((ofDifference a b).sign != (ofDifference a b).overflow) = decide (b + Word.signed (-a) < 0) :=
  sign_bne_overflow hb (Word.signed_inRange (-a))

/-- The seven conditions read two facts off the flags: whether they say less, and whether they say equal. -/
theorem holds_eq (f : Flags) (c : Condition) :
    c.holds f = match c with
      | .always => true
      | .le => (f.sign != f.overflow) || f.zero
      | .l => f.sign != f.overflow
      | .e => f.zero
      | .ne => !f.zero
      | .ge => !(f.sign != f.overflow)
      | .g => !f.zero && !(f.sign != f.overflow) := by
  -- the table compares the two flags by equality, the statement by their difference
  have hsame : (f.sign == f.overflow) = !(f.sign != f.overflow) := by rw [bne, Bool.not_not]
  cases c with
  | ge => exact hsame
  | g => exact congrArg (!f.zero && ·) hsame
  | _ => rfl

section Tells

variable (ha : Word.InRange a) (hb : Word.InRange b)

include ha hb

/-- For every operand but the least word the flags of a difference order the operands. -/
theorem tells_ofDifference (hne : a ≠ Word.least) : (ofDifference a b).Tells b a where
  overflow := by
    change (Arithmetic.sub.compute a b).2 = true ↔ _
    rw [Arithmetic.compute_sub_snd ha hb hne, decide_eq_true_iff]
    -- a number is a word if it is its own reading
    refine not_congr ⟨fun h => h ▸ Word.signed_inRange _, fun h => (Word.signed_of_inRange h).symm⟩
  holds := by
    intro c
    have hless : ((ofDifference a b).sign != (ofDifference a b).overflow) = decide (b < a) := by
      rw [sign_bne_overflow_ofDifference a hb, Word.signed_neg_of_ne ha hne]
      exact decide_eq_decide.2 (by omega)
    rw [holds_eq, hless, zero_ofDifference ha hb]
    cases c with
    | always => rfl
    | l => rfl
    | e => rfl
    | ne => exact decide_not.symm
    | le => exact (Bool.decide_or _ _).symm.trans (decide_eq_decide.2 (by omega))
    | ge => exact decide_not.symm.trans (decide_eq_decide.2 (by omega))
    | g =>
      rw [← decide_not, ← decide_not, ← Bool.decide_and]
      exact decide_eq_decide.2 (by omega)

end Tells

/-- The flags after the least word was taken off: the overflow flag is the wrong way round, and the other number is said
to be less, whatever it is. Only whether the two are equal is told as it is. -/
theorem ofDifference_least (hb : Word.InRange b) :
    ((ofDifference Word.least b).overflow = true ↔ Word.InRange (b - Word.least)) ∧
      ∀ c : Condition, c.holds (ofDifference Word.least b) =
        match c with
        | .always | .l | .le => true
        | .ge | .g => false
        | .e => decide (b = Word.least)
        | .ne => decide (b ≠ Word.least) := by
  have hleast : Word.InRange Word.least := by decide
  -- the least word is its own negative
  have hneg : Word.signed (-Word.least) = Word.least := by decide
  have hless : ((ofDifference Word.least b).sign != (ofDifference Word.least b).overflow) = true := by
    rw [sign_bne_overflow_ofDifference Word.least hb, hneg]
    unfold Word.InRange at hb
    exact decide_eq_true (by unfold Word.least; omega)
  constructor
  · have hword := Word.signed_eq (b + Word.least)
    change Arithmetic.sumOverflows b (Word.signed (-Word.least)) (Word.signed (b + Word.signed (-Word.least))) = true ↔
      Word.InRange (b - Word.least)
    rw [hneg, Arithmetic.sumOverflows_eq hb hleast, decide_eq_true_iff]
    unfold Word.InRange Word.least at *
    split at hword <;> omega
  · intro c
    rw [holds_eq, hless, zero_ofDifference hleast hb]
    cases c with
    | ne => exact decide_not.symm
    | g => exact Bool.and_false _
    | _ => rfl

/-- The least word is the only operand whose difference tells the wrong order: its negation is wrapped to itself. -/
theorem tells_ofDifference_iff (ha : Word.InRange a) (hb : Word.InRange b) :
    (ofDifference a b).Tells b a ↔ a ≠ Word.least := by
  refine ⟨?_, tells_ofDifference ha hb⟩
  rintro htells rfl
  -- the overflow flag would have to be right and wrong
  exact (iff_not_self (htells.overflow.symm.trans (ofDifference_least hb).1).symm)

/-- Zero and the least word: their difference `2 ^ 63` is no word, which the overflow flag does not say, and zero is
said to be less than the least word. -/
theorem least_word_misjudged :
    ¬Word.InRange (0 - Word.least) ∧ (ofDifference Word.least 0).overflow = false ∧
      ¬(0 < Word.least) ∧ Condition.l.holds (ofDifference Word.least 0) = true ∧
      ¬(ofDifference Word.least 0).Tells 0 Word.least := by
  have hoverflow : (ofDifference Word.least 0).overflow = false := by decide
  have hnoWord : ¬Word.InRange (0 - Word.least) := by decide
  refine ⟨hnoWord, hoverflow, by decide, by decide, fun htells => ?_⟩
  rw [htells.overflow.2 hnoWord] at hoverflow
  cases hoverflow

end Flags

namespace Machine

variable {m next s after : Machine} {op jump : Operation} {ra rb : Register} {a b : Int}

/-- A jump or a move on a condition goes by how `b` compares with `a`. -/
structure Decides (b a : Int) (s : Machine) (op : Operation) (after : Machine) : Prop where
  jump : op.kind = .jxx → ∃ c, Condition.ofCode? op.ifun = some c ∧
    after.pc = if c.compares b a then op.valC else s.pc + op.length
  move : op.kind = .rrmovq → ∃ c source target, Condition.ofCode? op.ifun = some c ∧
    op.rA = some source ∧ op.rB = some target ∧
    after.registers.get target = if c.compares b a then s.registers.get source else s.registers.get target

/-- Arithmetic forgets the flags that were there before. -/
theorem Effect.flags_sub (h : m.Effect op next) (hkind : op.kind = .opq) (hsub : op.ifun = Arithmetic.sub.code)
    (hA : op.rA = some ra) (hB : op.rB = some rb) :
    next.flags = .ofDifference (m.registers.get ra) (m.registers.get rb) := by
  cases h with
  | @compute a b f kind rA rB function =>
    obtain rfl : a = ra := Option.some.inj (rA.symm.trans hA)
    obtain rfl : b = rb := Option.some.inj (rB.symm.trans hB)
    rw [hsub, Arithmetic.ofCode?_code] at function
    obtain rfl := Option.some.inj function
    rfl
  | _ => simp_all

/-- The register that a move on a condition goes to. -/
theorem Effect.get_move {source target : Register} (h : m.Effect op next) (hkind : op.kind = .rrmovq)
    (hA : op.rA = some source) (hB : op.rB = some target) :
    next.registers.get target =
      if Condition.codeHolds op.ifun m.flags then m.registers.get source else m.registers.get target := by
  cases h with
  | @move a b kind holds rA rB =>
    obtain rfl : a = source := Option.some.inj (rA.symm.trans hA)
    obtain rfl : b = target := Option.some.inj (rB.symm.trans hB)
    rw [if_pos holds]
    -- a register holds a word, so writing it changes nothing of its value
    calc (m.registers.set b (m.registers.get a)).get b
      _ = Word.signed (m.registers.get a) := m.registers.get_set_self b _
      _ = m.registers.get a := Word.signed_of_inRange (m.registers.get_inRange a)
  | noMove kind fails =>
    rw [if_neg (Bool.eq_false_iff.1 fails)]
    rfl
  | _ => simp_all

/-- Where conditions hold as they compare two words, a conditional jump and a conditional move decide by that
comparison. -/
theorem decides_of_step (h : s.step = .ok (jump, after)) (hholds : ∀ c : Condition, c.holds s.flags = c.compares b a) :
    Decides b a s jump after := by
  obtain ⟨hdecode, heffect⟩ := effect_of_step h
  obtain ⟨opcode, hdecoded⟩ := Operation.exists_of_decode hdecode
  -- the function code names a condition, and that holds as it compares
  have hcode : ∀ {c}, Condition.ofCode? jump.ifun = some c →
      Condition.codeHolds jump.ifun s.flags = c.compares b a := by
    intro c hc
    rw [Condition.codeHolds, hc, ← hholds c]
    rfl
  constructor
  · intro hkind
    obtain ⟨c, hc⟩ := hdecoded.exists_condition (by rw [hkind]; rfl)
    refine ⟨c, hc, ?_⟩
    rw [heffect.pc_jump hkind, hcode hc]
  · intro hkind
    have hop := Operation.wellFormed_of_decode hdecode
    obtain ⟨c, hc⟩ := hdecoded.exists_condition (by rw [hkind]; rfl)
    obtain ⟨source, hA⟩ := hop.first (by rw [hkind]; rfl)
    obtain ⟨target, hB⟩ := hop.second (by rw [hkind]; rfl)
    refine ⟨c, source, target, hc, hA, hB, ?_⟩
    rw [heffect.get_move hkind hA hB, hcode hc]

/-- **Compare and branch is signed comparison**, unless the number that is taken off is the least word. The flags of a
difference tell how the two numbers compare exactly if that is not so. They are the flags that an instruction leaves
which takes the one off the other, and every jump and every move on a condition that finds them goes by the signed
order. -/
theorem compare_and_branch (ha : Word.InRange a) (hb : Word.InRange b) :
    ((Flags.ofDifference a b).Tells b a ↔ a ≠ Word.least) ∧
      ∀ (m next : Machine) (op : Operation) (ra rb : Register), m.step = .ok (op, next) →
        op.kind = .opq → op.ifun = Arithmetic.sub.code → op.rA = some ra → op.rB = some rb →
        m.registers.get ra = a → m.registers.get rb = b →
        next.flags = .ofDifference a b ∧
          (a ≠ Word.least → ∀ (s after : Machine) (jump : Operation), s.flags = next.flags →
            s.step = .ok (jump, after) → Decides b a s jump after) := by
  refine ⟨Flags.tells_ofDifference_iff ha hb, ?_⟩
  intro m next op ra rb hstep hkind hsub hA hB ha' hb'
  -- the flags after the subtraction are those of the difference of the two operands
  have hflags := (effect_of_step hstep).2.flags_sub hkind hsub hA hB
  rw [ha', hb'] at hflags
  refine ⟨hflags, fun hne s after jump hs hjump => decides_of_step hjump fun c => ?_⟩
  rw [hs, hflags]
  exact (Flags.tells_ofDifference ha hb hne).holds c

/-- One is taken off the least word, which is no word any more, and the jump behind is one on less. -/
theorem compare_and_branch_overflow :
    let m : Machine :=
      { registers := (RegisterFile.zeros.set .rax 1).set .rcx Word.least
        memory := (Memory.zeros 24 (by decide)).lay 0 [0x61, 0x01, 0x72, 16] }
    ∃ op next jump after, m.step = .ok (op, next) ∧ next.flags.Tells Word.least 1 ∧ next.flags.overflow = true ∧
      next.step = .ok (jump, after) ∧ jump.text = "jl 0x10" ∧ after.pc = 16 := by
  intro m
  have hone : Word.InRange 1 := by decide
  have hleast : Word.InRange Word.least := by decide
  obtain ⟨htells, hdecides⟩ := compare_and_branch hone hleast
  have hop : (m.step.toOption.map fun x => (x.1.kind, x.1.ifun, x.1.rA, x.1.rB, x.2.flags.overflow))
      = some (.opq, 1, some .rax, some .rcx, true) := by
    decide +kernel
  have hjump : (m.stepped.step.toOption.map fun x => (x.1.text, x.1.kind, x.1.ifun, x.1.valC))
      = some ("jl 0x10", .jxx, 2, 16) := by
    decide +kernel
  obtain ⟨⟨op, next⟩, hstep, hvalues⟩ := Option.map_eq_some_iff.1 hop
  simp only [Prod.mk.injEq] at hvalues
  obtain ⟨hkind, hsub, hA, hB, hoverflow⟩ := hvalues
  have hstep := eq_ok_of_toOption hstep
  rw [stepped_of_step hstep] at hjump
  obtain ⟨⟨jump, after⟩, hjumps, hvalues⟩ := Option.map_eq_some_iff.1 hjump
  simp only [Prod.mk.injEq] at hvalues
  obtain ⟨htext, hkind', hifun, hvalC⟩ := hvalues
  have hjumps := eq_ok_of_toOption hjumps
  -- the operands are what the registers hold
  obtain ⟨hflags, hdecides⟩ := hdecides m next op .rax .rcx hstep hkind hsub hA hB (by decide) (by decide)
  obtain ⟨c, hc, hpc⟩ := (hdecides (by decide) next after jump rfl hjumps).jump hkind'
  rw [hifun] at hc
  obtain rfl : Condition.l = c := Option.some.inj hc
  rw [if_pos (by decide), hvalC] at hpc
  exact ⟨op, next, jump, after, hstep, hflags ▸ htells.2 (by decide), hoverflow, hjumps, htext, hpc⟩

end Machine

end Y86
