import IntentPlan.Proofs.Numerals
import IntentPlan.Proofs.Scanning

/-!
# What a scan reports

A scan makes a warning of everything that it passes over, and a strict scan stops at the first of
these things instead (`scanStrict_eq`).  A warning is a text, but nothing is lost in it: what is
wrong, with which character and where, can be read off (`Notice.warning_injective`).  That rests on
characters in quotes, which can be read back (`Text.unquoteChar?_quoteChar`), and on places, which
hold no space.
-/

namespace IntentPlan

namespace Text

/-! ## Characters in quotes -/

/-- The character that a quoted one stands for. -/
def unquoteChar? : List Char → Option Char
  | [c] => some c
  | ['\\', c] =>
    some (if c = 'n' then '\n' else if c = 'r' then '\r' else if c = 't' then '\t' else c)
  | '\\' :: _ :: digits => some (Char.ofNat (ofHexDigits digits))
  | _ => none

theorem unquoteChar?_hexDigits (mark : Char) (width : Nat) (c : Char) :
    unquoteChar? ('\\' :: mark :: hexDigits width c.toNat) = some c := by
  have hnumber := ofHexDigits_hexDigits width c.toNat
  have hne : hexDigits width c.toNat ≠ [] := by
    rw [hexDigits]
    exact List.append_ne_nil_of_right_ne_nil _ (List.ne_nil_of_length_pos Nat.length_toDigits_pos)
  obtain ⟨d, ds, hdigits⟩ := List.exists_cons_of_ne_nil hne
  rw [hdigits] at hnumber ⊢
  rw [unquoteChar?, hnumber, Char.ofNat_toNat]
  exact List.cons_ne_nil d ds

/-- A quoted character can be read back. -/
theorem unquoteChar?_quoteChar {quote : Char} (h : quote = '\'' ∨ quote = '"') (c : Char) :
    unquoteChar? (quoteChar quote c) = some c := by
  unfold quoteChar
  split
  · rename_i hescaped
    simp only [Bool.or_eq_true, decide_eq_true_eq] at hescaped
    rcases hescaped with rfl | rfl
    · rcases h with rfl | rfl <;> rfl
    · rfl
  split
  · rename_i hc
    rw [hc]
    rfl
  split
  · rename_i hc
    rw [hc]
    rfl
  split
  · rename_i hc
    rw [hc]
    rfl
  split
  · rw [unquoteChar?]
  split
  · exact unquoteChar?_hexDigits 'x' 2 c
  split
  · exact unquoteChar?_hexDigits 'u' 4 c
  · exact unquoteChar?_hexDigits 'U' 8 c

theorem quoteMark_cases (cs : List Char) : quoteMark cs = '\'' ∨ quoteMark cs = '"' := by
  rw [quoteMark]
  split
  · exact .inr rfl
  · exact .inl rfl

theorem quoteChars_singleton (c : Char) :
    quoteChars [c] = quoteMark [c] :: (quoteChar (quoteMark [c]) c ++ [quoteMark [c]]) := by
  simp [quoteChars]

/-- Different characters look different in quotes. -/
theorem quoted_singleton_injective {c d : Char}
    (h : quoted (String.ofList [c]) = quoted (String.ofList [d])) : c = d := by
  have hlists := congrArg String.toList h
  simp only [quoted, String.toList_ofList, quoteChars_singleton] at hlists
  obtain ⟨hmark, hrest⟩ := List.cons.inj hlists
  rw [hmark] at hrest
  have hchar := congrArg unquoteChar? (List.append_cancel_right hrest)
  rw [unquoteChar?_quoteChar (quoteMark_cases [d]), unquoteChar?_quoteChar (quoteMark_cases [d])]
    at hchar
  exact Option.some.inj hchar

/-! ## Separators -/

/-- Two texts are cut apart at the last of their separators. -/
theorem append_cons_inj_of_notMem_right {α : Type} {x : α} {front front' back back' : List α}
    (hback : x ∉ back) (hback' : x ∉ back') (h : front ++ x :: back = front' ++ x :: back') :
    front = front' ∧ back = back' := by
  rcases List.append_eq_append_iff.1 h with ⟨between, rfl, heq⟩ | ⟨between, rfl, heq⟩
  · cases between with
    | nil => exact ⟨by simp, (List.cons.inj heq).2⟩
    | cons y between =>
        refine absurd ?_ hback
        rw [(List.cons.inj heq).2]
        simp
  · cases between with
    | nil => exact ⟨by simp, (List.cons.inj heq).2.symm⟩
    | cons y between =>
        refine absurd ?_ hback'
        rw [(List.cons.inj heq).2]
        simp

end Text

namespace Position

theorem toList_toString (p : Position) :
    p.toString.toList = p.line.repr.toList ++ ':' :: p.column.repr.toList := by
  change (p.line.repr ++ ":" ++ p.column.repr).toList = _
  simp

theorem space_notMem_toString (p : Position) : ' ' ∉ p.toString.toList := by
  rw [toList_toString]
  simp [Text.notMem_repr (c := ' ') rfl (by decide)]

theorem toString_injective : Function.Injective Position.toString := by
  intro p q h
  have hlists := congrArg String.toList h
  rw [toList_toString, toList_toString] at hlists
  have hcolon := Text.notMem_repr (c := ':') rfl (by decide)
  obtain ⟨hline, hcolumn⟩ := Text.append_cons_inj_of_notMem_right (hcolon _) (hcolon _) hlists
  obtain ⟨line, column⟩ := p
  obtain ⟨line', column'⟩ := q
  obtain rfl : line = line' := Text.repr_injective (String.toList_injective hline)
  obtain rfl : column = column' := Text.repr_injective (String.toList_injective hcolumn)
  rfl

end Position

namespace Token

/-! ## Warnings -/

/-- What a warning says before the place. -/
def Fault.lead : Fault → String
  | .unterminated => "Unterminated string starting at "
  | .unexpected c => "Dropping unexpected character " ++ Text.quoted (String.ofList [c]) ++ " at "

theorem Fault.toList_lead_unexpected (c : Char) :
    (unexpected c).lead.toList = "Dropping unexpected character ".toList ++
      ((Text.quoted (String.ofList [c])).toList ++ " at ".toList) := by
  -- rewriting would compare the characters of the literals
  have happend (s t u : String) : (s ++ t ++ u).toList = s.toList ++ (t.toList ++ u.toList) := by
    simp
  exact happend _ _ _

theorem Fault.lead_unexpected_ne (c : Char) : (unexpected c).lead ≠ unterminated.lead := by
  intro h
  have hlists := (toList_lead_unexpected c).symm.trans (congrArg String.toList h)
  have hfirst : 'D' = 'U' := (List.cons.inj hlists).1
  exact absurd hfirst (by decide)

theorem Fault.lead_injective : Function.Injective lead := by
  intro f g h
  cases f with
  | unterminated =>
      cases g with
      | unterminated => rfl
      | unexpected d => exact absurd h.symm (lead_unexpected_ne d)
  | unexpected c =>
      cases g with
      | unterminated => exact absurd h (lead_unexpected_ne c)
      | unexpected d =>
          have hquoted := (String.append_right_inj _).1 ((String.append_left_inj _).1 h)
          rw [Text.quoted_singleton_injective hquoted]

theorem Fault.exists_lead_eq (f : Fault) : ∃ front, f.lead.toList = front ++ [' '] := by
  cases f with
  | unterminated => exact ⟨"Unterminated string starting at".toList, by decide⟩
  | unexpected c =>
      have hat : " at ".toList = " at".toList ++ [' '] := by decide
      have hassoc (as bs cs : List Char) :
          as ++ (bs ++ (cs ++ [' '])) = as ++ (bs ++ cs) ++ [' '] := by
        simp
      exact ⟨_, (toList_lead_unexpected c).trans (hat ▸ hassoc _ _ _)⟩

theorem Notice.warning_eq (n : Notice) : n.warning = n.fault.lead ++ n.pos.toString := by
  obtain ⟨fault, p⟩ := n
  cases fault with
  | unterminated => rfl
  | unexpected c => exact String.append_assoc.symm

/-- A warning tells what is wrong, with which character, and where. -/
theorem Notice.warning_injective : Function.Injective warning := by
  intro m n h
  obtain ⟨front, hfront⟩ := m.fault.exists_lead_eq
  obtain ⟨front', hfront'⟩ := n.fault.exists_lead_eq
  have hlists := congrArg String.toList h
  rw [warning_eq, warning_eq, String.toList_append, String.toList_append, hfront, hfront',
    List.append_assoc, List.append_assoc] at hlists
  obtain ⟨rfl, hpos⟩ := Text.append_cons_inj_of_notMem_right m.pos.space_notMem_toString
    n.pos.space_notMem_toString hlists
  obtain ⟨fault, p⟩ := m
  obtain ⟨fault', p'⟩ := n
  obtain rfl : fault = fault' :=
    Fault.lead_injective (String.toList_injective (hfront.trans hfront'.symm))
  obtain rfl : p = p' := Position.toString_injective (String.toList_injective hpos)
  rfl

/-- The record of what was passed over. -/
def Notice.record (n : Notice) : Journal.Record := ⟨.warning, origin, n.warning⟩

theorem Notice.record_injective : Function.Injective record := by
  intro m n h
  exact warning_injective (congrArg Journal.Record.message h)

theorem records_eq (source : String) :
    records source = (notices source).map Notice.record ++
      [summaryRecord (scan source).length ((notices source).countP Notice.isDrop)] := rfl

/-- Of the records of a scan all but the summary are warnings. -/
theorem visible_records (source : String) :
    Journal.visible .warning (records source) = (notices source).map Notice.record := by
  have hwarnings : ∀ r ∈ (notices source).map Notice.record,
      decide (Journal.Level.warning.rank ≤ r.level.rank) = true := by
    intro r hr
    obtain ⟨n, -, rfl⟩ := List.mem_map.1 hr
    rfl
  rw [records_eq, Journal.visible, List.filter_append, List.filter_eq_self.2 hwarnings]
  exact List.append_nil _

theorem record_mem_records_iff {source : String} {n : Notice} :
    n.record ∈ records source ↔ n ∈ notices source := by
  have hvisible : n.record ∈ Journal.visible .warning (records source) ↔
      n.record ∈ records source := by
    rw [Journal.visible, List.mem_filter]
    exact and_iff_left rfl
  rw [← hvisible, visible_records, List.mem_map_of_injective Notice.record_injective]

/-! ## Strict scans -/

/-- A scan that goes on makes warnings of what it passes over.  A strict scan of the same source
succeeds exactly if there are none, and gives the same tokens.  Otherwise it stops with what the
first warning is about: the same fault, with the same character, at the same place. -/
theorem tokenize_strict_stops (source : String) :
    ∃ (tokens : List Token) (logged : List Journal.Record),
      (∀ s, (tokenize false source).outcome s =
        (.ok tokens, { s with journal := s.journal ++ logged })) ∧
      ∀ s,
        ((∃ tokens', ((tokenize true source).outcome s).1 = .ok tokens') ↔
          Journal.visible .warning logged = []) ∧
        (∀ tokens', ((tokenize true source).outcome s).1 = .ok tokens' → tokens' = tokens) ∧
        ((∃ n, ((tokenize true source).outcome s).1 = .error n) ↔
          Journal.visible .warning logged ≠ []) ∧
        ∀ fault p, ((tokenize true source).outcome s).1 = .error ⟨fault, p⟩ ↔
          (Journal.visible .warning logged).head? = some (Notice.record ⟨fault, p⟩) := by
  refine ⟨scan source, records source, outcome_tokenize_of_ok (by simp), fun s => ?_⟩
  rw [outcome_tokenize_strict, scanStrict_eq, visible_records, List.head?_map]
  cases notices source with
  | nil => simp [eq_comm]
  | cons n ns =>
      refine ⟨by simp, by simp, by simp, fun fault p => ?_⟩
      have hrecord : n.record = Notice.record ⟨fault, p⟩ ↔ n = ⟨fault, p⟩ :=
        Notice.record_injective.eq_iff
      simpa using hrecord.symm

-- a text without a closing quote swallows the characters that would be unexpected
example : notices "a ? 'b ;" = [⟨.unexpected '?', ⟨1, 3⟩⟩, ⟨.unterminated, ⟨1, 5⟩⟩] := by
  decide +kernel

end Token

end IntentPlan
