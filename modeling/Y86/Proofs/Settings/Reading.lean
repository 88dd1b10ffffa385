import Y86.Proofs.Document.Shown
import Y86.Proofs.Session.Setup
import Y86.Proofs.Settings.Names

/-!
# Reading settings

Settings are read from a value or from a document. Both are a `Source`: what matters is whether there are fields, and what
these have under the names of the settings. A text is read by a parser, which may be any: it has the settings of the
document that the parser makes of it (`Settings.parsed_eq_ok_iff`).

`Settings.reads_exactly` says what reading comes to: which sources hold settings, and which these are; why the others are
refused; and that what is read sets up a session. A source is refused with a message, but for one case: the message shows a
value that is neither an integer nor a text, and a value that is nested more deeply than there is room for cannot be shown.
How much room there is does not matter, as there is a value that is nested as deeply (`Settings.told?_nested`).
-/

namespace Y86

open Document Text

/-- What is said of an error, if that can be said at all in the room there is. -/
def SettingsError.told? (room : Nat) (e : SettingsError) : Option String :=
  match e.message room with
  | .ok message => some message
  | .error cause => cause.message?

namespace Settings

/-! ### Sources -/

/-- Where settings are read from. -/
inductive Source where
  | value (v : Value)
  | document (g : Graph)

namespace Source

def read : Source → Except SettingsError Settings
  | value v => ofValue v
  | document g => ofGraph g

/-- What is given under names; there are none where nothing is written, and the root has to be a mapping otherwise. -/
def given? : Source → Option (String → Option Value)
  | value .null => some fun _ => none
  | value (.mapping fields) => some fun name => Value.get? name fields
  | value _ => none
  | document g =>
    match g.object g.root with
    | .scalar .null => some fun _ => none
    | .mapping fields => some fun name => g.get? name fields
    | _ => none

/-- The name of the kind of the root. -/
def kind : Source → String
  | value v => v.kind
  | document g => (g.object g.root).kind

/-- The value that a source has for a setting. -/
def valueFor? (src : Source) (k : Setting) : Option Value := src.given?.bind fun given => given k.name

theorem read_eq (src : Source) :
    src.read = match src.given? with
      | some given => ofNames given
      | none => .error (.root src.kind) := by
  cases src with
  | value v => cases v <;> rfl
  | document g =>
    unfold read given? ofGraph kind
    dsimp only
    cases g.object g.root with
    | scalar v => cases v <;> rfl
    | _ => rfl

/-- Why there are no settings in a source. -/
inductive Refused (src : Source) : SettingsError → Prop
  /-- The root is no mapping. -/
  | root : src.given? = none → Refused src (.root src.kind)
  /-- A value denotes no integer, and it is the first one. -/
  | unread {given : String → Option Value} {k : Setting} {x : Value} {e : SettingsError} :
      src.given? = some given → given k.name = some x → integerOf x = .error e →
      (∀ j, Setting.Before j k → ∃ n, Chosen j (given j.name) n) → Refused src e
  /-- All values denote integers, but one is not positive, and it is the first one. -/
  | notPositive {given : String → Option Value} {k : Setting} {n : Setting → Int} :
      src.given? = some given → (∀ j, Chosen j (given j.name) (n j)) → n k ≤ 0 →
      (∀ j, Setting.Before j k → 0 < n j) → Refused src (.notPositive k (n k))

/-- Settings are read if each is chosen by what was given for its name, and is positive. -/
theorem read_eq_ok_iff {src : Source} {s : Settings} :
    src.read = .ok s ↔
      ∃ given, src.given? = some given ∧ ∀ k : Setting, 0 < s.get k ∧ Chosen k (given k.name) (s.get k) := by
  rw [read_eq]
  cases src.given? with
  | none => exact ⟨nofun, nofun⟩
  | some given =>
    refine ofNames_eq_ok_iff.trans ⟨fun h => ⟨given, rfl, h⟩, ?_⟩
    rintro ⟨_, ⟨⟩, h⟩
    exact h

/-- A source is refused for its root, for the first setting that cannot be read, or for the first that is not positive.
-/
theorem read_eq_error_iff {src : Source} {e : SettingsError} : src.read = .error e ↔ src.Refused e := by
  rw [read_eq]
  constructor
  · intro h
    cases hgiven : src.given? with
    | none =>
      rw [hgiven] at h
      cases h
      -- the document is no mapping
      exact .root hgiven
    | some given =>
      rw [hgiven] at h
      rcases ofNames_eq_error_iff.1 h with ⟨k, hk, hbefore⟩ | ⟨n, hchosen, k, hk, hbefore⟩
      · -- a setting cannot be read
        have hread := fun j hj => (hbefore j hj).imp fun n => lookUp_eq_ok_iff.1
        unfold lookUp at hk
        split at hk
        case h_1 x hx => exact .unread hgiven hx hk hread
        case h_2 => cases hk
      · -- a setting that has been read is not positive
        obtain ⟨hle, rfl⟩ := positive_eq_error_iff.1 hk
        refine .notPositive hgiven hchosen hle fun j hj => ?_
        obtain ⟨m, hm⟩ := hbefore j hj
        obtain ⟨hpos, heq⟩ := positive_eq_ok_iff.1 hm
        omega
  · intro h
    cases h with
    | root hgiven => rw [hgiven]
    | unread hgiven hx herror hbefore =>
      rw [hgiven]
      refine ofNames_eq_error_iff.2 (Or.inl ⟨_, ?_, fun j hj => (hbefore j hj).imp fun n => lookUp_eq_ok_iff.2⟩)
      unfold lookUp
      rw [hx]
      exact herror
    | @notPositive given k n hgiven hchosen hle hbefore =>
      rw [hgiven]
      refine ofNames_eq_error_iff.2 (Or.inr ⟨n, hchosen, k, positive_eq_error_iff.2 ⟨hle, rfl⟩, fun j hj => ?_⟩)
      exact ⟨(n j).toNat, positive_eq_ok_iff.2 (by have := hbefore j hj; omega)⟩

end Source

/-! ### What is said of an error -/

/-- Only a value that lies too deep keeps an error from being told. -/
theorem told?_eq_none_iff {room : Nat} {e : SettingsError} :
    e.told? room = none ↔ ∃ x, e = .format x ∧ x.display room = .error .tooDeep := by
  have hmessage : e.told? room = none ↔ e.message room = .error .tooDeep := by
    unfold SettingsError.told?
    cases e.message room with
    | ok message => exact ⟨nofun, nofun⟩
    | error cause =>
      cases cause with
      | tooLong => exact ⟨nofun, nofun⟩
      | tooDeep => exact ⟨fun _ => rfl, fun _ => rfl⟩
  rw [hmessage]
  unfold SettingsError.message
  -- the other messages show no value that is nested
  cases e with
  | root kind => exact ⟨nofun, nofun⟩
  | integer cause => exact ⟨nofun, nofun⟩
  | notPositive k n => exact ⟨fun h => absurd (map_eq_error_iff.1 h) (Value.shownInteger_ne_tooDeep n), nofun⟩
  | format x =>
    refine map_eq_error_iff.trans ⟨fun h => ⟨x, rfl, h⟩, ?_⟩
    rintro ⟨_, ⟨⟩, h⟩
    exact h

/-! ### Texts -/

section Texts

variable {α ε : Type} {parse : α → Except ε Graph} {input : α}

/-- A text has settings if its document has. -/
theorem parsed_eq_ok_iff {s : Settings} :
    parsed parse input = .ok s ↔ ∃ g, parse input = .ok g ∧ (Source.document g).read = .ok s := by
  unfold parsed
  cases parse input with
  | error e => exact ⟨nofun, nofun⟩
  | ok g =>
    refine mapError_eq_ok_iff.trans ⟨fun h => ⟨g, rfl, h⟩, ?_⟩
    rintro ⟨_, ⟨⟩, h⟩
    exact h

/-- A text that has none is no document, or its document is refused. -/
theorem parsed_eq_error_iff {e : ε ⊕ SettingsError} :
    parsed parse input = .error e ↔
      (∃ cause, parse input = .error cause ∧ e = .inl cause) ∨
        ∃ g cause, parse input = .ok g ∧ (Source.document g).Refused cause ∧ e = .inr cause := by
  unfold parsed
  cases parse input with
  | error cause' =>
    -- the parser has failed, and its error is passed on
    constructor
    · intro h
      exact Or.inl ⟨cause', rfl, (Except.error.inj h).symm⟩
    · rintro (⟨_, ⟨⟩, rfl⟩ | ⟨_, _, ⟨⟩, _⟩)
      rfl
  | ok g =>
    change (ofGraph g).mapError Sum.inr = _ ↔ _
    -- there is a document, and it is refused or not
    constructor
    · intro h
      cases hg : ofGraph g with
      | ok s =>
        rw [hg] at h
        cases h
      | error cause =>
        rw [hg] at h
        exact Or.inr ⟨g, cause, rfl, Source.read_eq_error_iff.1 hg, (Except.error.inj h).symm⟩
    · rintro (⟨_, ⟨⟩, _⟩ | ⟨_, cause, ⟨⟩, hcause, rfl⟩)
      have hg : ofGraph g = .error cause := Source.read_eq_error_iff.2 hcause
      rw [hg]
      rfl

end Texts

/-! ### All about reading settings -/

/-- What reading settings comes to, where values that lie inside each other can be shown up to a depth. -/
structure Source.ReadsExactly (src : Source) (room : Nat) : Prop where
  /-- **Settings.** They are read exactly from a source that is empty or a mapping and has, for each setting, no value or one
  that denotes a positive integer. Each setting is its default then, or this integer. -/
  accepted : ∀ s : Settings, src.read = .ok s ↔
    ∃ given, src.given? = some given ∧ ∀ k : Setting, 0 < s.get k ∧ Chosen k (given k.name) (s.get k)
  /-- **Errors.** The root is looked at first, then what the values denote, and then whether that is positive. -/
  refused : ∀ e : SettingsError, src.read = .error e ↔ src.Refused e
  /-- **Messages.** An error has a message, unless it is about the value of a setting that is nested too deeply. -/
  told : ∀ e : SettingsError, src.read = .error e →
    (∃ message, e.told? room = some message) ∨
      ∃ k x, src.valueFor? k = some x ∧ e = .format x ∧ ¬x.FitsIn room
  /-- **Missing messages.** There is none for a value that is nested too deeply, if it could be shown in more room. -/
  untold : ∀ x, src.read = .error (.format x) → (∃ d text, Value.shown d x = .ok text) → 0 < room →
    ¬x.FitsIn room → (SettingsError.format x).told? room = none
  /-- **Names.** A setting depends on its own value and on nothing else. -/
  own : ∀ (src' : Source) (s s' : Settings) (k : Setting), src.read = .ok s → src'.read = .ok s' →
    src.valueFor? k = src'.valueFor? k → s.get k = s'.get k
  /-- **Spellings.** A number may be spelled differently, up to the number of digits that a numeral may have. -/
  respelled : ∀ (src' : Source) (given given' : String → Option Value), src.given? = some given →
    src'.given? = some given' →
    (∀ k : Setting, given k.name = given' k.name ∨ ∃ v x y, given k.name = some x ∧ given' k.name = some y ∧
      v < 10 ^ Integer.maxDigits ∧ Spells v x ∧ Spells v y) →
    src.read = src'.read
  /-- **Sessions.** Settings that are read describe a session. -/
  setsUp : ∀ s : Settings, src.read = .ok s → s.SetsUp

/-- **Reading settings.** Settings are read from a source or it is refused, with a message unless a value in it is nested
more deeply than there is room for; and what is read sets up a session. -/
theorem reads_exactly (src : Source) (room : Nat) : src.ReadsExactly room where
  accepted s := Source.read_eq_ok_iff
  refused e := Source.read_eq_error_iff
  told e he := by
    cases htold : e.told? room with
    | some message => exact Or.inl ⟨message, rfl⟩
    | none =>
      obtain ⟨x, rfl, hdeep⟩ := told?_eq_none_iff.1 htold
      -- of all refusals only that of a value shows one
      cases Source.read_eq_error_iff.1 he with
      | @unread given k y _ hgiven hy herror =>
        obtain rfl := eq_of_integerOf_eq_format herror
        have hvalue : src.valueFor? k = some x := by
          unfold Source.valueFor?
          rw [hgiven]
          exact hy
        exact Or.inr ⟨k, x, hvalue, rfl, fun hfits => hfits.display_ne_tooDeep hdeep⟩
  untold x hx hshown hpos hroom := by
    obtain ⟨d, text, hshown⟩ := hshown
    exact told?_eq_none_iff.2 ⟨x, rfl, Value.display_tooDeep hpos hshown hroom⟩
  own src' s s' k hs hs' hvalue := by
    obtain ⟨given, hgiven, hchosen⟩ := Source.read_eq_ok_iff.1 hs
    obtain ⟨given', hgiven', hchosen'⟩ := Source.read_eq_ok_iff.1 hs'
    unfold Source.valueFor? at hvalue
    rw [hgiven, hgiven'] at hvalue
    -- both settings are chosen by the same value
    have hk := (hchosen' k).2
    rw [← show given k.name = given' k.name from hvalue] at hk
    exact Int.ofNat.inj ((hchosen k).2.unique hk)
  respelled src' given given' hgiven hgiven' h := by
    rw [Source.read_eq, Source.read_eq, hgiven, hgiven']
    refine ofNames_congr fun k => ?_
    unfold lookUp
    rcases h k with hk | ⟨v, x, y, hx, hy, hv, hspellsx, hspellsy⟩
    · rw [hk]
    · rw [hx, hy]
      exact (integerOf_of_spells hv hspellsx).trans (integerOf_of_spells hv hspellsy).symm
  setsUp s hs := by
    obtain ⟨given, -, hchosen⟩ := Source.read_eq_ok_iff.1 hs
    exact setsUp (hchosen .memorySize).1 (hchosen .maxSteps).1

/-- A sign, blanks and an underscore are read with the digits. -/
example : ofValue (.mapping [(.text (points "max_steps"), .text (points " +1_000 "))]) = .ok { maxSteps := 1000 } := by
  rfl

/-! ### A value that cannot be shown -/

/-- Lists inside each other. -/
def nested : Nat → Value
  | 0 => .int 1
  | n + 1 => .list [nested n]

theorem shown_nested {d n : Nat} (h : d ≤ n) : Value.shown d (nested n) = .error .tooDeep := by
  induction n generalizing d with
  | zero => rw [Nat.le_zero.1 h, Value.shown]
  | succ n ih =>
    cases d with
    | zero => rw [Value.shown]
    | succ d =>
      -- the only item of the list is the cause
      have hinner := ih (Nat.le_of_succ_le_succ h)
      rw [nested, Value.shown, Value.shownItems, hinner]
      rfl

theorem ofValue_nested (n : Nat) :
    ofValue (.mapping [(.text (points "memory_size"), nested (n + 1))]) = .error (.format (nested (n + 1))) := rfl

/-- Whatever room there is, a list that is nested as deeply is refused without a message. -/
theorem told?_nested {room n : Nat} (h : room ≤ n + 1) :
    (SettingsError.format (nested (n + 1))).told? room = none :=
  told?_eq_none_iff.2 ⟨nested (n + 1), rfl, shown_nested h⟩

/-- So it is with a list of 12320 levels, in all room up to that. -/
theorem nested_value_untold :
    ofValue (.mapping [(.text (points "memory_size"), nested 12320)]) = .error (.format (nested 12320)) ∧
      ∀ room ≤ 12320, (SettingsError.format (nested 12320)).told? room = none :=
  ⟨ofValue_nested 12319, fun _ hroom => told?_nested (n := 12319) hroom⟩

end Settings

end Y86
