import NatServer.Json.Text
/-!
# What is dumped is parsed back

`parse_dump`: `parse` inverts `dump` on every value.
`parse_prefix`: no proper prefix of a dumped object is accepted, so a
datagram that is cut short is never mistaken for a shorter message.
-/

namespace Json

theorem run_cons (st : Scan × Parser) (c : Char) (cs : List Char) :
    run st (c :: cs) = (feed st c).bind fun st' => run st' cs := by
  simp only [run, List.foldlM_cons, Option.bind_eq_bind, Option.bind_assoc]

/-- A character that only moves the lexer. -/
theorem run_scan {sc sc' : Scan} {c : Char} (h : sc.feed c = some (sc', [])) (p : Parser) (cs : List Char) :
    run (sc, p) (c :: cs) = run (sc', p) cs := by
  simp [run_cons, feed, h]

/-- A character that completes one token. -/
theorem run_token {sc sc' : Scan} {c : Char} {t : Token} (h : sc.feed c = some (sc', [t])) (p : Parser)
    (cs : List Char) : run (sc, p) (c :: cs) = (p.onToken t).bind fun p' => run (sc', p') cs := by
  simp only [run_cons, feed, h, Option.bind_eq_bind, Option.bind_some, List.foldlM_cons, List.foldlM_nil]
  cases p.onToken t <;> rfl

/-! ## Strings -/

theorem hexValue_hexDigit : ∀ d < 16, hexValue (hexDigit d) = some d := by decide

theorem run_escape (c : Char) (buf : List Char) (p : Parser) (cs : List Char) :
    run (.string buf, p) (escape c ++ cs) = run (.string (c :: buf), p) cs := by
  unfold escape
  split_ifs with h1 h2 h3 h4 h5 h6 h7 h8
  · subst h1; rfl
  · subst h2; rfl
  · subst h3; rfl
  · subst h4; rfl
  · subst h5; rfl
  · subst h6; rfl
  · subst h7; rfl
  · have hi : (Scan.codepoint buf none 2 0).feed (hexDigit (c.toNat / 16)) =
        some (.codepoint buf none 3 (c.toNat / 16), []) := by
      simp [Scan.feed, hexValue_hexDigit _ (by omega : c.toNat / 16 < 16)]
    have lo : (Scan.codepoint buf none 3 (c.toNat / 16)).feed (hexDigit (c.toNat % 16)) =
        some (.string (c :: buf), []) := by
      have hd : Scan.codepointDone buf none (16 * (c.toNat / 16) + c.toNat % 16) = some (.string (c :: buf)) := by
        rw [Nat.div_add_mod, Scan.codepointDone, if_neg (by omega), if_neg (by omega), Char.ofNat_toNat]
      simp [Scan.feed, hexValue_hexDigit _ (by omega : c.toNat % 16 < 16), hd]
    calc run (.string buf, p) _
        = run (.codepoint buf none 2 0, p) (hexDigit (c.toNat / 16) :: hexDigit (c.toNat % 16) :: cs) := rfl
      _ = run (.string (c :: buf), p) cs := by rw [run_scan hi, run_scan lo]
  · exact run_scan (by simp [Scan.feed, h6, h7, h8]) _ _

theorem run_escapes (l buf : List Char) (p : Parser) (cs : List Char) :
    run (.string buf, p) (l.flatMap escape ++ cs) = run (.string (l.reverse ++ buf), p) cs := by
  induction l generalizing buf with
  | nil => rfl
  | cons c l ih => rw [List.flatMap_cons, List.append_assoc, run_escape, ih]; simp

/-- A dumped string is the token of that string. -/
theorem run_dumpString (s : String) (p : Parser) (cs : List Char) :
    run (.start, p) (dumpString s ++ cs) = (p.onToken (.scalar (string s))).bind fun p' => run (.start, p') cs := by
  have e : dumpString s ++ cs = '"' :: (s.toList.flatMap escape ++ '"' :: cs) := by simp [dumpString]
  have q : (Scan.string (s.toList.reverse ++ [])).feed '"' = some (.start, [.scalar (string s)]) := by
    simp [Scan.feed]
  have o : Scan.start.feed '"' = some (.string [], []) := rfl
  rw [e, run_scan o, run_escapes, run_token q]

/-! ## Numbers -/

/-- What may follow a value inside a container, or the end of input. -/
def Ends (cs : List Char) : Prop := ∀ c ∈ cs.head?, c = ',' ∨ c = ']' ∨ c = '}'

theorem run_digits {st st' : NumState} {ds : List Char} (h : ds.foldlM NumState.next st = some st') (buf : List Char)
    (p : Parser) (cs : List Char) :
    run (.number st buf, p) (ds ++ cs) = run (.number st' (ds.reverse ++ buf), p) cs := by
  induction ds generalizing st buf with
  | nil => simp_all
  | cons c ds ih =>
    rw [List.foldlM_cons] at h
    obtain ⟨st₁, h1, h2⟩ := Option.bind_eq_some_iff.1 h
    have hf : (Scan.number st buf).feed c = some (.number st₁ (c :: buf), []) := by simp [Scan.feed, h1]
    rw [List.cons_append, run_scan hf, ih h2]
    simp

/-- A number ends where something that cannot continue it follows. -/
theorem run_number {st : NumState} {buf : List Char} {j : Json} (h : numberOf st buf.reverse = some j) (p : Parser)
    {cs : List Char} (hc : Ends cs) :
    run (.number st buf, p) cs = (p.onToken (.scalar j)).bind fun p' => run (.start, p') cs := by
  cases cs with
  | nil => simp [run, finish, Scan.finish, h]
  | cons c cs =>
    have hn : st.next c = none := by
      rcases hc c rfl with rfl | rfl | rfl <;> cases st <;> rfl
    have hs : ∃ t, Scan.feedStart c = some (.start, [t]) := by
      rcases hc c rfl with rfl | rfl | rfl <;> exact ⟨_, rfl⟩
    obtain ⟨t, ht⟩ := hs
    have e : (Scan.number st buf).feed c = some (.start, [.scalar j, t]) := by simp [Scan.feed, hn, h, ht]
    simp only [run_cons, feed, e, show Scan.start.feed c = _ from ht, Option.bind_eq_bind, Option.bind_some,
      List.foldlM_cons, List.foldlM_nil]
    cases p.onToken (.scalar j) <;> rfl

theorem feedStart_number {c : Char} {st : NumState} (h : NumState.init c = some st) :
    Scan.feedStart c = some (.number st [c], []) := by
  have hc : c = '-' ∨ c.isDigit = true := by
    unfold NumState.init at h
    split_ifs at h with h1 h2 h3
    · exact .inl h1
    · exact .inr (by simp [h2])
    · exact .inr h3
  unfold Scan.feedStart
  split <;> first
    | (exfalso; revert hc; decide)
    | simp [h]

/-- A whole literal is the token of its number. -/
theorem run_literal {lit : List Char} {st : NumState} {j : Json} (hs : NumState.scan lit = some st)
    (hj : numberOf st lit = some j) (p : Parser) {cs : List Char} (hc : Ends cs) :
    run (.start, p) (lit ++ cs) = (p.onToken (.scalar j)).bind fun p' => run (.start, p') cs := by
  cases lit with
  | nil => cases hs
  | cons c ds =>
    obtain ⟨st₁, h1, h2⟩ := Option.bind_eq_some_iff.1 hs
    have hf : Scan.start.feed c = some (.number st₁ [c], []) := feedStart_number h1
    rw [List.cons_append, run_scan hf, run_digits h2]
    exact run_number (by simpa using hj) p hc

theorem Integer.numberOf_dump (n : Integer) :
    ∃ st, NumState.scan n.dump = some st ∧ numberOf st n.dump = some (integer n) := by
  rcases n.scan_dump with h | h <;> exact ⟨_, h, by simp [numberOf, NumState.isFinal, n.toInteger?_dump]⟩

theorem FloatLit.numberOf_text (f : FloatLit) :
    ∃ st, NumState.scan f.text = some st ∧ numberOf st f.text = some (float f) := by
  have h := f.isFloat
  simp only [isFloatLit, Bool.and_eq_true, Option.any_eq_true, Option.isNone_iff_eq_none] at h
  obtain ⟨⟨⟨st, hs, hf⟩, hn⟩, -⟩ := h
  exact ⟨st, hs, by simp [numberOf, hf, hn, f.isFloat]⟩

/-! ## Values -/

/-- The parser takes the first token of a value into `stack`. -/
def Expects (p : Parser) (stack : List Frame) : Prop :=
  p = .value stack ∨ ∃ st, p = .valueOrEnd st ∧ stack = .array [] :: st

theorem Expects.scalar {p : Parser} {stack : List Frame} (h : Expects p stack) (j : Json) :
    p.onToken (.scalar j) = some (.deliver j stack) := by
  obtain rfl | ⟨st, rfl, rfl⟩ := h <;> rfl

theorem Expects.begin_array {p : Parser} {stack : List Frame} (h : Expects p stack) :
    p.onToken .begin_array = some (.valueOrEnd stack) := by
  obtain rfl | ⟨st, rfl, rfl⟩ := h <;> rfl

theorem Expects.begin_object {p : Parser} {stack : List Frame} (h : Expects p stack) :
    p.onToken .begin_object = some (.keyOrEnd stack) := by
  obtain rfl | ⟨st, rfl, rfl⟩ := h <;> rfl

theorem ends_items (l : List Value) (cs : List Char) : Ends (dumpItems l ++ ']' :: cs) := by
  cases l <;> simp [Ends, dumpItems]

theorem ends_members (l : List (String × Value)) (cs : List Char) : Ends (dumpMembers l ++ '}' :: cs) := by
  cases l <;> simp [Ends, dumpMembers]

/-- The members of a listing added to those read so far. -/
def addAll (m : StrMap Json) (l : List (String × Json)) : StrMap Json := l.foldl (fun m p => m.insert p.1 p.2) m

/-- The characters of `true`, `false` and `null`. -/
theorem run_rest {x : Char} {xs : List Char} {j : Json} (p : Parser) (cs : List Char) :
    run (.literal (x :: xs) j, p) (x :: xs ++ cs) = (p.onToken (.scalar j)).bind fun p' => run (.start, p') cs := by
  induction xs generalizing x with
  | nil =>
    have h : (Scan.literal [x] j).feed x = some (.start, [.scalar j]) := by simp [Scan.feed]
    exact run_token h p cs
  | cons y ys ih =>
    have h : (Scan.literal (x :: y :: ys) j).feed x = some (.literal (y :: ys) j, []) := by simp [Scan.feed]
    rw [List.cons_append, run_scan h, ih]

theorem deliver_array (v : Value) (l : List Value) (hv : (Value.array (v :: l)).Canonical) :
    array ([⟨v, hv.of_array v (by simp)⟩].reverse ++ l.pmap Json.mk fun w hw => hv.of_array w (by simp [hw])) =
      ⟨.array (v :: l), hv⟩ :=
  toJson_view ⟨.array (v :: l), hv⟩

theorem addAll_members (l : List (String × Value)) (hl : (Value.object l).Canonical) :
    object (addAll ∅ (l.pmap (fun p hp => (p.1, ⟨p.2, hp⟩)) hl.of_object.2)) = ⟨.object l, hl⟩ := by
  rw [addAll, ← Std.ExtTreeMap.ofList_eq_foldl]
  exact toJson_view ⟨.object l, hl⟩

mutual
/-- Reading a dumped value delivers it. -/
theorem run_dump : ∀ (v : Value) (hv : v.Canonical) (p : Parser) (stack : List Frame) (cs : List Char),
    Expects p stack → Ends cs →
    run (.start, p) (v.dump ++ cs) = run (.start, .deliver ⟨v, hv⟩ stack) cs
  | .null, _, p, stack, cs, hp, _ => by
    have h : Scan.start.feed 'n' = some (.literal ['u', 'l', 'l'] null, []) := rfl
    rw [Value.dump, show "null".toList ++ cs = 'n' :: (['u', 'l', 'l'] ++ cs) from rfl, run_scan h, run_rest, hp.scalar]
    rfl
  | .boolean true, _, p, stack, cs, hp, _ => by
    have h : Scan.start.feed 't' = some (.literal ['r', 'u', 'e'] (boolean true), []) := rfl
    rw [Value.dump, show "true".toList ++ cs = 't' :: (['r', 'u', 'e'] ++ cs) from rfl, run_scan h, run_rest, hp.scalar]
    rfl
  | .boolean false, _, p, stack, cs, hp, _ => by
    have h : Scan.start.feed 'f' = some (.literal ['a', 'l', 's', 'e'] (boolean false), []) := rfl
    rw [Value.dump, show "false".toList ++ cs = 'f' :: (['a', 'l', 's', 'e'] ++ cs) from rfl, run_scan h, run_rest,
      hp.scalar]
    rfl
  | .integer n, _, p, stack, cs, hp, hc => by
    obtain ⟨st, hs, hn⟩ := n.numberOf_dump
    rw [Value.dump, run_literal hs hn p hc, hp.scalar]
    rfl
  | .float f, _, p, stack, cs, hp, hc => by
    obtain ⟨st, hs, hn⟩ := f.numberOf_text
    rw [Value.dump, run_literal hs hn p hc, hp.scalar]
    rfl
  | .string s, _, p, stack, cs, hp, _ => by
    rw [Value.dump, run_dumpString, hp.scalar]
    rfl
  | .array [], _, p, stack, cs, hp, _ => by
    have ho : Scan.start.feed '[' = some (.start, [.begin_array]) := rfl
    have hc : Scan.start.feed ']' = some (.start, [.end_array]) := rfl
    rw [Value.dump, List.cons_append, run_token ho, hp.begin_array, Option.bind_some, List.singleton_append,
      run_token hc]
    rfl
  | .array (v :: l), hv, p, stack, cs, hp, _ => by
    have ho : Scan.start.feed '[' = some (.start, [.begin_array]) := rfl
    have hl : ∀ w ∈ l, w.Canonical := fun w hw => hv.of_array w (by simp [hw])
    simp only [Value.dump, List.cons_append, List.append_assoc, List.nil_append]
    rw [run_token ho, hp.begin_array, Option.bind_some,
      run_dump v (hv.of_array v (by simp)) _ _ _ (.inr ⟨stack, rfl, rfl⟩) (ends_items l cs), Parser.deliver,
      run_items l hl, deliver_array v l hv]
  | .object [], _, p, stack, cs, hp, _ => by
    have ho : Scan.start.feed '{' = some (.start, [.begin_object]) := rfl
    have hc : Scan.start.feed '}' = some (.start, [.end_object]) := rfl
    rw [Value.dump, List.cons_append, run_token ho, hp.begin_object, Option.bind_some, List.singleton_append,
      run_token hc]
    rfl
  | .object ((k, v) :: l), hv, p, stack, cs, hp, _ => by
    have ho : Scan.start.feed '{' = some (.start, [.begin_object]) := rfl
    have hs : Scan.start.feed ':' = some (.start, [.name_separator]) := rfl
    have hl : ∀ q ∈ l, q.2.Canonical := fun q hq => hv.of_object.2 q (by simp [hq])
    simp only [Value.dump, List.cons_append, List.append_assoc, List.nil_append]
    rw [run_token ho, hp.begin_object, Option.bind_some, run_dumpString]
    simp only [Parser.onToken, Parser.onKey, view_string, Option.bind_some]
    rw [run_token hs]
    simp only [Parser.onToken, Option.bind_some]
    rw [run_dump v (hv.of_object.2 (k, v) (by simp)) _ _ _ (.inl rfl) (ends_members l cs),
      Parser.deliver, run_members l hl]
    -- the members are back in the order of the keys
    exact congrArg (fun j => run (.start, Parser.deliver j stack) cs) (addAll_members ((k, v) :: l) hv)

theorem run_items : ∀ (l : List Value) (hl : ∀ v ∈ l, v.Canonical) (items : List Json) (stack : List Frame)
    (cs : List Char),
    run (.start, .arrayNext items stack) (dumpItems l ++ ']' :: cs) =
      run (.start, .deliver (array (items.reverse ++ l.pmap Json.mk hl)) stack) cs
  | [], _, items, stack, cs => by
    have hc : Scan.start.feed ']' = some (.start, [.end_array]) := rfl
    rw [dumpItems, List.nil_append, run_token hc]
    simp [Parser.onToken]
  | v :: l, hl, items, stack, cs => by
    have hc : Scan.start.feed ',' = some (.start, [.value_separator]) := rfl
    rw [dumpItems, List.cons_append, List.cons_append, run_token hc]
    simp only [Parser.onToken, Option.bind_some, List.append_assoc]
    rw [run_dump v (hl v (by simp)) _ _ _ (.inl rfl) (ends_items l cs), Parser.deliver,
      run_items l fun w hw => hl w (by simp [hw])]
    simp

theorem run_members : ∀ (l : List (String × Value)) (hl : ∀ p ∈ l, p.2.Canonical) (members : StrMap Json)
    (stack : List Frame) (cs : List Char),
    run (.start, .objectNext members stack) (dumpMembers l ++ '}' :: cs) =
      run (.start, .deliver (object (addAll members (l.pmap (fun p hp => (p.1, ⟨p.2, hp⟩)) hl))) stack) cs
  | [], _, members, stack, cs => by
    have hc : Scan.start.feed '}' = some (.start, [.end_object]) := rfl
    rw [dumpMembers, List.nil_append, run_token hc]
    rfl
  | (k, v) :: l, hl, members, stack, cs => by
    have hc : Scan.start.feed ',' = some (.start, [.value_separator]) := rfl
    have hs : Scan.start.feed ':' = some (.start, [.name_separator]) := rfl
    simp only [dumpMembers, List.cons_append, List.append_assoc]
    rw [run_token hc]
    simp only [Parser.onToken, Option.bind_some]
    rw [run_dumpString]
    simp only [Parser.onToken, Parser.onKey, view_string, Option.bind_some]
    rw [run_token hs]
    simp only [Parser.onToken, Option.bind_some]
    rw [run_dump v (hl (k, v) (by simp)) _ _ _ (.inl rfl) (ends_members l cs), Parser.deliver,
      run_members l fun q hq => hl q (by simp [hq])]
    rfl
end

/-! ## The round trip -/

/-- Dumped text has no control characters, so no NUL. -/
def Printable (cs : List Char) : Prop := ∀ c ∈ cs, 0x20 ≤ c.toNat

theorem printable_append {cs ds : List Char} : Printable (cs ++ ds) ↔ Printable cs ∧ Printable ds := by
  simp only [Printable, List.mem_append, or_imp, forall_and]

theorem printable_cons {c : Char} {cs : List Char} : Printable (c :: cs) ↔ 0x20 ≤ c.toNat ∧ Printable cs := by
  simp [Printable]

theorem printable_nil : Printable [] := by simp [Printable]

theorem printable_digit {c : Char} (h : c.isDigit = true) : 0x20 ≤ c.toNat := by
  simp only [Char.isDigit, Bool.and_eq_true, decide_eq_true_eq] at h
  exact le_trans (by decide) h.1

theorem printable_integer (n : Integer) : Printable n.dump := by
  have hd : Printable (Nat.toDigits 10 n.val.natAbs) := fun c hc =>
    printable_digit (Nat.isDigit_of_mem_toDigits (by decide) (by decide) hc)
  unfold Integer.dump
  split
  · exact printable_cons.2 ⟨by decide, hd⟩
  · exact hd

theorem NumState.printable_init {st : NumState} {c : Char} (h : init c = some st) : 0x20 ≤ c.toNat := by
  unfold init at h
  split_ifs at h with h1 h2 h3
  · subst h1; decide
  · subst h2; decide
  · exact printable_digit h3

theorem NumState.printable_next {st st' : NumState} {c : Char} (h : st.next c = some st') : 0x20 ≤ c.toNat := by
  have hc : c.isDigit = true ∨ c = '0' ∨ c = '.' ∨ (c = 'e' ∨ c = 'E') ∨ (c = '+' ∨ c = '-') := by
    cases st <;> simp only [next] at h <;> split_ifs at h <;> simp_all
  rcases hc with h | rfl | rfl | (rfl | rfl) | (rfl | rfl)
  · exact printable_digit h
  all_goals decide

theorem NumState.printable_foldlM {ds : List Char} {st st' : NumState} (h : ds.foldlM next st = some st') :
    Printable ds := by
  induction ds generalizing st with
  | nil => exact printable_nil
  | cons c ds ih =>
    rw [List.foldlM_cons] at h
    obtain ⟨st₁, h1, h2⟩ := Option.bind_eq_some_iff.1 h
    exact printable_cons.2 ⟨printable_next h1, ih h2⟩

theorem printable_float (f : FloatLit) : Printable f.text := by
  obtain ⟨st, hs, -⟩ := f.numberOf_text
  cases e : f.text with
  | nil => exact printable_nil
  | cons c ds =>
    rw [e] at hs
    obtain ⟨st₁, h1, h2⟩ := Option.bind_eq_some_iff.1 hs
    exact printable_cons.2 ⟨NumState.printable_init h1, NumState.printable_foldlM h2⟩

theorem printable_escape (c : Char) : Printable (escape c) := by
  have hx : ∀ d < 16, 0x20 ≤ (hexDigit d).toNat := by decide
  unfold escape
  split_ifs with h1 h2 h3 h4 h5 h6 h7 h8
  on_goal 8 => simp [Printable, hx _ (by omega : c.toNat / 16 < 16), hx _ (by omega : c.toNat % 16 < 16)]
  on_goal 8 => simp [Printable]; omega
  all_goals simp [Printable]

theorem printable_string (s : String) : Printable (dumpString s) := by
  refine printable_append.2 ⟨printable_cons.2 ⟨by decide, fun c hc => ?_⟩, by simp [Printable]⟩
  obtain ⟨x, -, hx⟩ := List.mem_flatMap.1 hc
  exact printable_escape x c hx

mutual
theorem printable_dump : ∀ v : Value, Printable v.dump
  | .null | .boolean true | .boolean false | .array [] | .object [] => by simp [Value.dump, Printable]
  | .integer n => printable_integer n
  | .float f => printable_float f
  | .string s => printable_string s
  | .array (v :: l) => by
    simp [Value.dump, printable_append, printable_cons, printable_nil, printable_dump v, printable_items l]
  | .object ((k, v) :: l) => by
    simp [Value.dump, printable_append, printable_cons, printable_nil, printable_string k, printable_dump v,
      printable_members l]

theorem printable_items : ∀ l : List Value, Printable (dumpItems l)
  | [] => printable_nil
  | v :: l => by simp [dumpItems, printable_append, printable_cons, printable_dump v, printable_items l]

theorem printable_members : ∀ l : List (String × Value), Printable (dumpMembers l)
  | [] => printable_nil
  | (k, v) :: l => by
    simp [dumpMembers, printable_append, printable_cons, printable_string k, printable_dump v, printable_members l]
end

theorem run_dump_all (j : Json) : run (.start, .value []) j.val.dump = some j := by
  have h := run_dump j.val j.canonical (.value []) [] [] (.inl rfl) (by simp [Ends])
  rw [List.append_nil] at h
  rw [h]
  rfl

theorem takeWhile_printable {cs : List Char} (h : Printable cs) : cs.takeWhile (· ≠ '\x00') = cs := by
  induction cs with
  | nil => rfl
  | cons c cs ih =>
    obtain ⟨hc, hcs⟩ := printable_cons.1 h
    have hne : c ≠ '\x00' := by rintro rfl; exact absurd hc (by decide)
    rw [List.takeWhile_cons_of_pos (by simpa using hne), ih hcs]

theorem inputOf_dump (j : Json) : inputOf j.val.dump = j.val.dump := by
  unfold inputOf
  rw [takeWhile_printable (printable_dump j.val)]
  split
  · next cs e =>
    -- the lexer rejects a mark that `inputOf` has not taken off
    have h := run_dump_all j
    rw [e, run_cons, show feed (.start, .value []) '\uFEFF' = none from rfl] at h
    cases h
  · rfl

/-- `parse` inverts `dump`. -/
@[simp] theorem parse_dump (j : Json) : parse j.dump = some j := by
  rw [parse, dump, String.toList_ofList, inputOf_dump, run_dump_all]

theorem dump_inj {j j' : Json} (h : j.dump = j'.dump) : j = j' := by
  have := parse_dump j
  rwa [h, parse_dump, Option.some_inj, eq_comm] at this

/-! ## Cut text -/

theorem run_append (st : Scan × Parser) (cs ds : List Char) :
    run st (cs ++ ds) = (cs.foldlM feed st).bind fun st' => run st' ds := by
  simp only [run, List.foldlM_append, Option.bind_eq_bind, Option.bind_assoc]

/-- Once a token has been read, the parser is never again at the start of the
whole text. -/
theorem onToken_ne_start {p p' : Parser} {t : Token} (h : p.onToken t = some p') : p' ≠ .value [] := by
  have hd (j : Json) (stack : List Frame) : Parser.deliver j stack ≠ .value [] := by
    rcases stack with _ | ⟨_ | _, _⟩ <;> simp [Parser.deliver]
  have hv {stack : List Frame} (h : Parser.onValue stack t = some p') : p' ≠ .value [] := by
    cases t <;> simp only [Parser.onValue, Option.some.injEq, reduceCtorEq] at h <;> subst h <;> simp [hd]
  have hk {ms : StrMap Json} {stack : List Frame} (h : Parser.onKey ms stack t = some p') : p' ≠ .value [] := by
    cases t <;> simp only [Parser.onKey, reduceCtorEq] at h
    split at h <;> cases h
    simp
  cases p <;> cases t <;>
    simp only [Parser.onToken, Option.some.injEq, reduceCtorEq] at h <;>
    first
    | exact hv h
    | exact hk h
    | (subst h; simp [hd])

theorem foldlM_onToken_ne_start {toks : List Token} {p p' : Parser} (h : toks.foldlM Parser.onToken p = some p')
    (hp : p ≠ .value []) : p' ≠ .value [] := by
  induction toks generalizing p with
  | nil => cases h; exact hp
  | cons t toks ih =>
    rw [List.foldlM_cons] at h
    obtain ⟨p₁, h1, h2⟩ := Option.bind_eq_some_iff.1 h
    exact ih h2 (onToken_ne_start h1)

theorem foldlM_feed_ne_start {cs : List Char} {st st' : Scan × Parser} (h : cs.foldlM feed st = some st')
    (hp : st.2 ≠ .value []) : st'.2 ≠ .value [] := by
  induction cs generalizing st with
  | nil => cases h; exact hp
  | cons c cs ih =>
    rw [List.foldlM_cons] at h
    obtain ⟨st₁, h1, h2⟩ := Option.bind_eq_some_iff.1 h
    simp only [feed, Option.bind_eq_bind, Option.bind_eq_some_iff, Option.some.injEq] at h1
    obtain ⟨⟨sc, toks⟩, -, p, hf, rfl⟩ := h1
    exact ih h2 (foldlM_onToken_ne_start hf hp)

/-- Only blanks leave the lexer between tokens without a token. -/
theorem feed_start {sc : Scan} {c : Char} (h : sc.feed c = some (.start, [])) :
    sc = .start ∧ (c = ' ' ∨ c = '\t' ∨ c = '\n' ∨ c = '\r') := by
  cases sc with
  | start =>
    refine ⟨rfl, ?_⟩
    simp only [Scan.feed, Scan.feedStart] at h
    split at h <;> simp_all
  | literal rest j =>
    rcases rest with _ | ⟨x, _ | ⟨y, ys⟩⟩ <;> simp only [Scan.feed, reduceCtorEq] at h <;> split_ifs at h <;> simp_all
  | string buf => simp only [Scan.feed] at h; split_ifs at h <;> simp_all
  | escape buf => simp only [Scan.feed] at h; split at h <;> simp_all
  | codepoint buf high digits val =>
    simp only [Scan.feed, Option.bind_eq_bind, Option.bind_eq_some_iff] at h
    obtain ⟨d, -, h⟩ := h
    split_ifs at h
    · simp only [Option.map_eq_some_iff, Prod.mk.injEq, and_true] at h
      obtain ⟨sc, hsc, rfl⟩ := h
      unfold Scan.codepointDone at hsc
      split at hsc <;> split_ifs at hsc <;> simp at hsc
    · simp at h
  | surrogate buf high => simp only [Scan.feed] at h; split_ifs at h; simp at h
  | surrogateU buf high => simp only [Scan.feed] at h; split_ifs at h; simp at h
  | number st buf =>
    simp only [Scan.feed] at h
    split at h
    · simp at h
    · simp [Option.bind_eq_some_iff] at h

theorem foldlM_done {toks : List Token} {j : Json} {p : Parser}
    (h : toks.foldlM Parser.onToken (.done j) = some p) : toks = [] ∧ p = .done j := by
  cases toks with
  | nil => cases h; exact ⟨rfl, rfl⟩
  | cons t toks => cases t <;> simp [List.foldlM_cons, Parser.onToken] at h

/-- After the whole value only blanks are accepted. -/
theorem run_done {sc : Scan} {j j' : Json} {cs : List Char} (h : run (sc, .done j) cs = some j') :
    sc = .start ∧ ∀ c ∈ cs, c = ' ' ∨ c = '\t' ∨ c = '\n' ∨ c = '\r' := by
  induction cs generalizing sc with
  | nil =>
    simp only [run, List.foldlM_nil, finish, Option.bind_eq_bind, Option.pure_def, Option.bind_some,
      Option.bind_eq_some_iff] at h
    obtain ⟨toks, ht, p, hp, -⟩ := h
    obtain ⟨rfl, -⟩ := foldlM_done hp
    cases sc <;> simp [Scan.finish] at ht
    exact ⟨rfl, by simp⟩
  | cons c cs ih =>
    simp only [run_cons, feed, Option.bind_eq_bind, Option.bind_eq_some_iff, Option.some.injEq] at h
    obtain ⟨-, ⟨⟨sc', toks⟩, hsc, p, hp, rfl⟩, hr⟩ := h
    obtain ⟨rfl, rfl⟩ := foldlM_done hp
    obtain ⟨rfl, hcs⟩ := ih hr
    obtain ⟨rfl, hc⟩ := feed_start hsc
    exact ⟨rfl, by simpa using ⟨hc, hcs⟩⟩

theorem Value.dump_object (l : List (String × Value)) : ∃ cs, (Value.object l).dump = '{' :: cs ++ ['}'] := by
  cases l with
  | nil => exact ⟨[], rfl⟩
  | cons p l => exact ⟨_, rfl⟩

/-- A number ends the text only where nothing is open. -/
theorem onToken_scalar_done {p : Parser} {j j' : Json} (h : p.onToken (.scalar j) = some (.done j')) :
    p = .value [] := by
  cases p with
  | value stack =>
    rcases stack with _ | ⟨_ | _, _⟩ <;> simp [Parser.onToken, Parser.onValue, Parser.deliver] at h ⊢
  | keyOrEnd stack | key ms stack => simp only [Parser.onToken, Parser.onKey] at h; split at h <;> simp at h
  | _ => simp [Parser.onToken, Parser.onValue, Parser.deliver] at h

/-- A proper prefix of a dumped object is not accepted. -/
theorem run_cut {m : StrMap Json} {cs ds : List Char} (h : cs ++ ds = (object m).val.dump) (hds : ds ≠ []) :
    run (.start, .value []) cs = none := by
  obtain ⟨body, hb⟩ : ∃ cs, (object m).val.dump = '{' :: cs ++ ['}'] := Value.dump_object _
  rw [← Option.not_isSome_iff_eq_none, Option.isSome_iff_exists]
  rintro ⟨j, hj⟩
  cases cs with
  | nil => cases hj
  | cons c cs =>
    have hc : c = '{' := by rw [hb] at h; simpa using congrArg List.head? h
    subst hc
    have ho : feed (.start, .value []) '{' = some (.start, .keyOrEnd []) := rfl
    have hall := run_dump_all (object m)
    rw [← h, List.cons_append, run_cons, ho, Option.bind_some, run_append] at hall
    rw [run_cons, ho, Option.bind_some, run, Option.bind_eq_bind, Option.bind_eq_some_iff] at hj
    obtain ⟨⟨sc, p⟩, hf, hj⟩ := hj
    have hp : p ≠ .value [] := foldlM_feed_ne_start hf (by simp)
    rw [hf, Option.bind_some] at hall
    simp only [finish, Option.bind_eq_bind, Option.bind_eq_some_iff] at hj
    obtain ⟨toks, ht, p', hp', hj⟩ := hj
    split at hj
    case h_2 => cases hj
    next x =>
    cases sc <;> simp only [Scan.finish, reduceCtorEq, Option.some.injEq, Option.map_eq_some_iff] at ht
    case start =>
      subst ht
      cases hp'
      -- what is left would have to be blanks, but it ends in `}`
      have hlast := (run_done hall).2 '}' (by
        have := congrArg List.getLast? (h.trans hb)
        rw [List.getLast?_append_of_ne_nil _ hds] at this
        rw [List.getLast?_append_of_ne_nil _ (by simp)] at this
        exact List.mem_of_getLast? this)
      simp at hlast
    case number =>
      obtain ⟨n, -, rfl⟩ := ht
      simp only [List.foldlM_cons, List.foldlM_nil, Option.bind_eq_bind, Option.pure_def, Option.bind_fun_some] at hp'
      exact hp (onToken_scalar_done hp')

end Json
