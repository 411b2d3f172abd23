import NatServer.Json.RoundTrip
/-!
# What the lexer reads

`Lexes` cuts a text into tokens with blanks between them, without the states
and the buffer of the lexer. `tokens`, which is the lexer run to the end of a
text, gives these tokens and fails where there are none (`tokens_iff`).
-/

namespace Json

/-- The tokens of a whole text, as the lexer gives them without the parser. -/
def tokens : Scan → List Char → Option (List Token)
  | sc, [] => sc.finish
  | sc, c :: cs => do
    let (sc, toks) ← sc.feed c
    let rest ← tokens sc cs
    some (toks ++ rest)

/-! ## The grammar -/

def IsBlank (c : Char) : Prop := c = ' ' ∨ c = '\t' ∨ c = '\n' ∨ c = '\r'

/-- The letters after a backslash, but for `u`, and what they stand for. -/
def escapes : List (Char × Char) :=
  [('"', '"'), ('\\', '\\'), ('/', '/'), ('b', '\x08'), ('f', '\x0c'), ('n', '\n'), ('r', '\r'), ('t', '\t')]

def hexNumber (ds : List Char) : Option Nat := ds.foldlM (fun n c => (hexValue c).map (16 * n + ·)) 0

/-- Four hexadecimal digits. -/
structure Hex4 (ds : List Char) (v : Nat) : Prop where
  length_eq : ds.length = 4
  number : hexNumber ds = some v

/-- What stands between the quotes, and the characters it spells. -/
inductive Spells : List Char → List Char → Prop
  | nil : Spells [] []
  | plain {c cs l} : c ≠ '"' → c ≠ '\\' → 0x20 ≤ c.toNat → Spells cs l → Spells (c :: cs) (c :: l)
  | escape {e c cs l} : (e, c) ∈ escapes → Spells cs l → Spells ('\\' :: e :: cs) (c :: l)
  | unicode {ds v cs l} : Hex4 ds v → v < 0xD800 ∨ 0xDFFF < v → Spells cs l →
      Spells ('\\' :: 'u' :: ds ++ cs) (Char.ofNat v :: l)
  -- two surrogates, for a character beyond the first 2 ^ 16
  | pair {hs h ds v cs l} : Hex4 hs h → 0xD800 ≤ h → h ≤ 0xDBFF → Hex4 ds v → 0xDC00 ≤ v → v ≤ 0xDFFF → Spells cs l →
      Spells ('\\' :: 'u' :: hs ++ '\\' :: 'u' :: ds ++ cs)
        (Char.ofNat (0x10000 + (h - 0xD800) * 0x400 + (v - 0xDC00)) :: l)

/-- The tokens whose end shows in their own characters. -/
inductive Lexeme : List Char → Token → Prop
  | begin_array : Lexeme ['['] .begin_array
  | end_array : Lexeme [']'] .end_array
  | begin_object : Lexeme ['{'] .begin_object
  | end_object : Lexeme ['}'] .end_object
  | name_separator : Lexeme [':'] .name_separator
  | value_separator : Lexeme [','] .value_separator
  | true : Lexeme ['t', 'r', 'u', 'e'] (.scalar (boolean true))
  | false : Lexeme ['f', 'a', 'l', 's', 'e'] (.scalar (boolean false))
  | null : Lexeme ['n', 'u', 'l', 'l'] (.scalar null)
  | string {cs l} : Spells cs l → Lexeme ('"' :: cs ++ ['"']) (.scalar (string (String.ofList l)))

/-- A text and its tokens. A number goes on as long as it can. -/
inductive Lexes : List Char → List Token → Prop
  | nil : Lexes [] []
  | blank {c cs ts} : IsBlank c → Lexes cs ts → Lexes (c :: cs) ts
  | token {lit t cs ts} : Lexeme lit t → Lexes cs ts → Lexes (lit ++ cs) (t :: ts)
  | number {lit st j cs ts} : NumState.scan lit = some st → numberOf st lit = some j →
      (∀ c ∈ cs.head?, st.next c = none) → Lexes cs ts → Lexes (lit ++ cs) (.scalar j :: ts)

/-! ## The lexer reads what the grammar has -/

theorem tokens_feed {sc sc' : Scan} {c : Char} {toks : List Token} (h : sc.feed c = some (sc', toks)) (cs : List Char) :
    tokens sc (c :: cs) = (tokens sc' cs).map (toks ++ ·) := by
  simp only [tokens, h, Option.bind_eq_bind, Option.bind_some]
  cases tokens sc' cs <;> rfl

theorem tokens_scan {sc sc' : Scan} {c : Char} (h : sc.feed c = some (sc', [])) (cs : List Char) :
    tokens sc (c :: cs) = tokens sc' cs := by
  simp [tokens_feed h]

theorem tokens_token {sc sc' : Scan} {c : Char} {t : Token} (h : sc.feed c = some (sc', [t])) (cs : List Char) :
    tokens sc (c :: cs) = (tokens sc' cs).map (t :: ·) := tokens_feed h cs

theorem Hex4.tokens {ds : List Char} {v : Nat} (h : Hex4 ds v) (buf : List Char) (high : Option Nat) (cs : List Char) :
    tokens (.codepoint buf high 0 0) (ds ++ cs) = (Scan.codepointDone buf high v).bind (Json.tokens · cs) := by
  obtain ⟨hlen, hnumber⟩ := h
  obtain ⟨a, b, c, d, rfl⟩ : ∃ a b c d, ds = [a, b, c, d] := by
    rcases ds with _ | ⟨a, _ | ⟨b, _ | ⟨c, _ | ⟨d, _ | ⟨e, ds⟩⟩⟩⟩⟩ <;> simp at hlen
    exact ⟨a, b, c, d, rfl⟩
  simp only [hexNumber, List.foldlM_cons, List.foldlM_nil, Option.bind_eq_bind, Option.bind_eq_some_iff,
    Option.map_eq_some_iff, Option.pure_def, Option.some.injEq] at hnumber
  obtain ⟨_, ⟨a', ha, rfl⟩, _, ⟨b', hb, rfl⟩, _, ⟨c', hc, rfl⟩, _, ⟨d', hd, rfl⟩, rfl⟩ := hnumber
  have hfeed (digits val d' : Nat) (c : Char) (hc : hexValue c = some d') (hlt : digits ≠ 3) :
      (Scan.codepoint buf high digits val).feed c = some (.codepoint buf high (digits + 1) (16 * val + d'), []) := by
    simp [Scan.feed, hc, hlt]
  rw [List.cons_append, tokens_scan (hfeed 0 _ a' a ha (by decide)), List.cons_append,
    tokens_scan (hfeed 1 _ b' b hb (by decide)), List.cons_append, tokens_scan (hfeed 2 _ c' c hc (by decide)),
    List.cons_append, List.nil_append]
  simp only [Json.tokens, Scan.feed, hd, Option.bind_eq_bind, Option.bind_some, if_true]
  cases Scan.codepointDone buf high _ with
  | none => rfl
  | some sc => cases hts : Json.tokens sc cs <;> simp [hts]

theorem Spells.tokens {raw l : List Char} (h : Spells raw l) (buf cs : List Char) :
    tokens (.string buf) (raw ++ cs) = Json.tokens (.string (l.reverse ++ buf)) cs := by
  induction h generalizing buf with
  | nil => rfl
  | @plain c raw l hquote hback hlow _ ih =>
    have hfeed : (Scan.string buf).feed c = some (.string (c :: buf), []) := by
      simp [Scan.feed, hquote, hback, Nat.not_lt.2 hlow]
    rw [List.cons_append, tokens_scan hfeed, ih]
    simp
  | @escape e c raw l he _ ih =>
    have hback : (Scan.string buf).feed '\\' = some (.escape buf, []) := by simp [Scan.feed]
    have hfeed : (Scan.escape buf).feed e = some (.string (c :: buf), []) := by
      simp only [escapes, List.mem_cons, Prod.mk.injEq, List.not_mem_nil, or_false] at he
      rcases he with ⟨rfl, rfl⟩ | ⟨rfl, rfl⟩ | ⟨rfl, rfl⟩ | ⟨rfl, rfl⟩ | ⟨rfl, rfl⟩ | ⟨rfl, rfl⟩ | ⟨rfl, rfl⟩ | ⟨rfl, rfl⟩ <;>
        rfl
    rw [List.cons_append, tokens_scan hback, List.cons_append, tokens_scan hfeed, ih]
    simp
  | @unicode ds v raw l hds hv _ ih =>
    have hback : (Scan.string buf).feed '\\' = some (.escape buf, []) := by simp [Scan.feed]
    have hdone : Scan.codepointDone buf none v = some (.string (Char.ofNat v :: buf)) := by
      rw [Scan.codepointDone, if_neg (by omega), if_neg (by omega)]
    rw [List.append_assoc, List.cons_append, tokens_scan hback, List.cons_append, tokens_scan rfl, hds.tokens, hdone,
      Option.bind_some, ih]
    simp
  | @pair hs h ds v raw l hhs hlow hhigh hds hlow' hhigh' _ ih =>
    have hback : (Scan.string buf).feed '\\' = some (.escape buf, []) := by simp [Scan.feed]
    have hhalf : Scan.codepointDone buf none h = some (.surrogate buf h) := by
      rw [Scan.codepointDone, if_pos ⟨hlow, hhigh⟩]
    have hdone : Scan.codepointDone buf (some h) v =
        some (.string (Char.ofNat (0x10000 + (h - 0xD800) * 0x400 + (v - 0xDC00)) :: buf)) := by
      rw [Scan.codepointDone, if_pos ⟨hlow', hhigh'⟩]
    simp only [List.append_assoc, List.cons_append]
    rw [tokens_scan hback, tokens_scan rfl, hhs.tokens, hhalf, Option.bind_some, tokens_scan rfl, tokens_scan rfl,
      hds.tokens, hdone, Option.bind_some, ih]
    simp

theorem Lexeme.tokens {lit : List Char} {t : Token} (h : Lexeme lit t) (cs : List Char) :
    tokens .start (lit ++ cs) = (Json.tokens .start cs).map (t :: ·) := by
  cases h with
  | @string raw l hspells =>
    have hquote : (Scan.string (l.reverse ++ [])).feed '"' = some (.start, [.scalar (Json.string (String.ofList l))]) := by
      simp [Scan.feed]
    rw [List.append_assoc, List.cons_append, tokens_scan rfl, hspells.tokens, List.singleton_append,
      tokens_token hquote]
  | true | false | null =>
    simp only [List.cons_append, List.nil_append]
    repeat rw [tokens_scan rfl]
    exact tokens_token rfl cs
  | _ => exact tokens_token rfl cs

theorem tokens_digits {st st' : NumState} {ds : List Char} (h : ds.foldlM NumState.next st = some st')
    (buf cs : List Char) : tokens (.number st buf) (ds ++ cs) = tokens (.number st' (ds.reverse ++ buf)) cs := by
  induction ds generalizing st buf with
  | nil =>
    cases h
    rfl
  | cons c ds ih =>
    rw [List.foldlM_cons] at h
    obtain ⟨st₁, hnext, hrest⟩ := Option.bind_eq_some_iff.1 h
    have hfeed : (Scan.number st buf).feed c = some (.number st₁ (c :: buf), []) := by simp [Scan.feed, hnext]
    rw [List.cons_append, tokens_scan hfeed, ih hrest]
    simp

theorem tokens_number {st : NumState} {buf cs : List Char} {j : Json} (h : numberOf st buf.reverse = some j)
    (hend : ∀ c ∈ cs.head?, st.next c = none) :
    tokens (.number st buf) cs = (tokens .start cs).map (.scalar j :: ·) := by
  cases cs with
  | nil => simp [tokens, Scan.finish, h]
  | cons c cs =>
    have hnext := hend c rfl
    cases hstart : Scan.feedStart c with
    | none => simp [tokens, Scan.feed, hnext, h, hstart]
    | some q =>
      have hfeed : (Scan.number st buf).feed c = some (q.1, .scalar j :: q.2) := by
        simp [Scan.feed, hnext, h, hstart]
      have hfeed' : Scan.start.feed c = some (q.1, q.2) := hstart
      rw [tokens_feed hfeed, tokens_feed hfeed', Option.map_map]
      rfl

theorem Lexes.tokens {cs : List Char} {ts : List Token} (h : Lexes cs ts) : tokens .start cs = some ts := by
  induction h with
  | nil => rfl
  | @blank c cs ts hblank _ ih =>
    have hfeed : Scan.start.feed c = some (.start, []) := by rcases hblank with rfl | rfl | rfl | rfl <;> rfl
    rw [tokens_scan hfeed, ih]
  | token hlexeme _ ih =>
    rw [hlexeme.tokens, ih]
    rfl
  | @number lit st j cs ts hscan hj hend _ ih =>
    cases lit with
    | nil => cases hscan
    | cons c ds =>
      obtain ⟨st₁, hinit, hdigits⟩ := Option.bind_eq_some_iff.1 hscan
      have hfeed : Scan.start.feed c = some (.number st₁ [c], []) := feedStart_number hinit
      rw [List.cons_append, tokens_scan hfeed, tokens_digits hdigits, tokens_number (by simpa using hj) hend, ih]
      rfl

/-! ## The grammar has what the lexer reads -/

theorem Spells.append {raw raw' l l' : List Char} (h : Spells raw l) (h' : Spells raw' l') :
    Spells (raw ++ raw') (l ++ l') := by
  induction h with
  | nil => exact h'
  | plain hquote hback hlow _ ih => exact .plain hquote hback hlow ih
  | escape he _ ih => exact .escape he ih
  | unicode hds hv _ ih => simpa using Spells.unicode hds hv ih
  | pair hhs hlow hhigh hds hlow' hhigh' _ ih => simpa using Spells.pair hhs hlow hhigh hds hlow' hhigh' ih

theorem Spells.snoc {raw buf part : List Char} {c : Char} (h : Spells raw buf.reverse) (hc : Spells part [c]) :
    Spells (raw ++ part) (c :: buf).reverse := by
  rw [List.reverse_cons]
  exact h.append hc

/-- The high surrogate before a `\u` escape, if there is one. -/
inductive HighHalf : Option Nat → List Char → Prop
  | none : HighHalf none []
  | some {hs h} : Hex4 hs h → 0xD800 ≤ h → h ≤ 0xDBFF → HighHalf (some h) ('\\' :: 'u' :: hs)

/-- The characters `pre` of an unfinished token, which led to a state. -/
def Reached (pre : List Char) : Scan → Prop
  | .start => pre = []
  | .literal rest j => Lexeme (pre ++ rest) (.scalar j)
  | .string buf => ∃ raw, pre = '"' :: raw ∧ Spells raw buf.reverse
  | .escape buf => ∃ raw, pre = '"' :: raw ++ ['\\'] ∧ Spells raw buf.reverse
  | .codepoint buf high digits val => ∃ raw hs ds, pre = '"' :: raw ++ hs ++ '\\' :: 'u' :: ds ∧
      Spells raw buf.reverse ∧ HighHalf high hs ∧ ds.length = digits ∧ hexNumber ds = some val
  | .surrogate buf high => ∃ raw hs, pre = '"' :: raw ++ hs ∧ Spells raw buf.reverse ∧ HighHalf (some high) hs
  | .surrogateU buf high => ∃ raw hs, pre = '"' :: raw ++ hs ++ ['\\'] ∧ Spells raw buf.reverse ∧ HighHalf (some high) hs
  | .number st buf => pre = buf.reverse ∧ NumState.scan pre = some st

/-- What one more character of a token makes of it. -/
inductive Progress (pre : List Char) (c : Char) : Scan → List Token → Prop
  | within {sc} : Reached (pre ++ [c]) sc → Progress pre c sc []
  | token {t} : Lexeme (pre ++ [c]) t → Progress pre c .start [t]
  | blank : pre = [] → IsBlank c → Progress pre c .start []

theorem progress_start {sc : Scan} {c : Char} {toks : List Token} (h : Scan.feedStart c = some (sc, toks)) :
    Progress [] c sc toks := by
  unfold Scan.feedStart at h
  split at h
  all_goals first | (simp only [Option.some.injEq, Prod.mk.injEq] at h; obtain ⟨rfl, rfl⟩ := h) | skip
  · exact .blank rfl (.inl rfl)
  · exact .blank rfl (.inr (.inl rfl))
  · exact .blank rfl (.inr (.inr (.inl rfl)))
  · exact .blank rfl (.inr (.inr (.inr rfl)))
  · exact .token .begin_array
  · exact .token .end_array
  · exact .token .begin_object
  · exact .token .end_object
  · exact .token .name_separator
  · exact .token .value_separator
  · exact .within .true
  · exact .within .false
  · exact .within .null
  · exact .within ⟨[], rfl, .nil⟩
  · obtain ⟨st, hinit, heq⟩ := Option.map_eq_some_iff.1 h
    cases heq
    exact .within ⟨rfl, by simp [NumState.scan, hinit]⟩

theorem Hex4.snoc {ds : List Char} {c : Char} {v d : Nat} (hlen : ds.length = 3) (hv : hexNumber ds = some v)
    (hd : hexValue c = some d) : Hex4 (ds ++ [c]) (16 * v + d) := by
  refine ⟨by simp [hlen], ?_⟩
  rw [hexNumber] at hv ⊢
  rw [List.foldlM_append, hv]
  simp [hd]

/-- The fourth digit ends a character or the first of two surrogates. -/
theorem reached_codepointDone {raw buf hs ds : List Char} {high : Option Nat} {v : Nat} {sc : Scan}
    (hspells : Spells raw buf.reverse) (hhigh : HighHalf high hs) (hds : Hex4 ds v)
    (h : Scan.codepointDone buf high v = some sc) : Reached ('"' :: raw ++ hs ++ '\\' :: 'u' :: ds) sc := by
  cases hhigh with
  | none =>
    rw [Scan.codepointDone] at h
    split_ifs at h with hfirst hsecond
    · cases h
      exact ⟨raw, _, by simp, hspells, .some hds hfirst.1 hfirst.2⟩
    · cases h
      refine ⟨raw ++ '\\' :: 'u' :: ds, by simp, hspells.snoc ?_⟩
      simpa using Spells.unicode hds (by omega) .nil
  | @some hs h₁ hhs hlow hup =>
    rw [Scan.codepointDone] at h
    split_ifs at h with hsecond
    cases h
    refine ⟨raw ++ ('\\' :: 'u' :: hs ++ '\\' :: 'u' :: ds), by simp, hspells.snoc ?_⟩
    simpa using Spells.pair hhs hlow hup hds hsecond.1 hsecond.2 .nil

theorem Reached.escape {raw buf : List Char} {sc : Scan} {c : Char} {toks : List Token}
    (hspells : Spells raw buf.reverse) (hf : (Scan.escape buf).feed c = some (sc, toks)) :
    toks = [] ∧ Reached ('"' :: raw ++ ['\\'] ++ [c]) sc := by
  have hletter {e x : Char} (he : (e, x) ∈ escapes) : Reached ('"' :: raw ++ ['\\'] ++ [e]) (.string (x :: buf)) :=
    ⟨raw ++ ['\\', e], by simp, hspells.snoc (.escape he .nil)⟩
  simp only [Scan.feed] at hf
  split at hf
  case h_10 => cases hf
  all_goals
    cases hf
    refine ⟨rfl, ?_⟩
  case h_9 => exact ⟨raw, [], [], by simp, hspells, .none, rfl, rfl⟩
  all_goals exact hletter (by decide)

theorem NumState.scan_snoc {lit : List Char} {st : NumState} {c : Char} (h : NumState.scan lit = some st) :
    NumState.scan (lit ++ [c]) = st.next c := by
  cases lit with
  | nil => cases h
  | cons x ds =>
    obtain ⟨st₁, hinit, hdigits⟩ := Option.bind_eq_some_iff.1 h
    simp [NumState.scan, hinit, List.foldlM_append, hdigits]

/-- Within a token but for a number, a character goes on with it or ends it. -/
theorem Reached.progress {pre : List Char} {sc sc' : Scan} {c : Char} {toks : List Token} (h : Reached pre sc)
    (hf : sc.feed c = some (sc', toks)) (hnumber : ∀ st buf, sc = .number st buf → st.next c ≠ none) :
    Progress pre c sc' toks := by
  cases sc with
  | start =>
    cases h
    exact progress_start hf
  | literal rest j =>
    rcases rest with _ | ⟨x, _ | ⟨y, ys⟩⟩
    · cases hf
    · simp only [Scan.feed] at hf
      split_ifs at hf with hx
      cases hf
      exact .token (hx ▸ h)
    · simp only [Scan.feed] at hf
      split_ifs at hf with hx
      cases hf
      refine .within ?_
      rw [Reached] at h ⊢
      simpa [hx] using h
  | string buf =>
    obtain ⟨raw, rfl, hspells⟩ := h
    simp only [Scan.feed] at hf
    split_ifs at hf with hquote hback hlow
    · cases hf
      subst hquote
      exact .token (.string hspells)
    · cases hf
      exact hback ▸ .within ⟨raw, rfl, hspells⟩
    · cases hf
      exact .within ⟨raw ++ [c], by simp, hspells.snoc (.plain hquote hback (by omega) .nil)⟩
  | escape buf =>
    obtain ⟨raw, rfl, hspells⟩ := h
    obtain ⟨rfl, hreached⟩ := Reached.escape hspells hf
    exact .within hreached
  | codepoint buf high digits val =>
    obtain ⟨raw, hs, ds, rfl, hspells, hhigh, rfl, hval⟩ := h
    simp only [Scan.feed, Option.bind_eq_bind, Option.bind_eq_some_iff] at hf
    obtain ⟨d, hd, hf⟩ := hf
    split_ifs at hf with hlen
    · obtain ⟨sc, hdone, heq⟩ := Option.map_eq_some_iff.1 hf
      cases heq
      refine .within ?_
      simpa using reached_codepointDone hspells hhigh (.snoc hlen hval hd) hdone
    · cases hf
      refine .within ⟨raw, hs, ds ++ [c], by simp, hspells, hhigh, by simp, ?_⟩
      rw [hexNumber] at hval ⊢
      rw [List.foldlM_append, hval]
      simp [hd]
  | surrogate buf high =>
    obtain ⟨raw, hs, rfl, hspells, hhigh⟩ := h
    simp only [Scan.feed] at hf
    split_ifs at hf with hback
    cases hf
    exact hback ▸ .within ⟨raw, hs, rfl, hspells, hhigh⟩
  | surrogateU buf high =>
    obtain ⟨raw, hs, rfl, hspells, hhigh⟩ := h
    simp only [Scan.feed] at hf
    split_ifs at hf with hu
    cases hf
    exact hu ▸ .within ⟨raw, hs, [], by simp, hspells, hhigh, rfl, rfl⟩
  | number st buf =>
    obtain ⟨rfl, hscan⟩ := h
    obtain ⟨st', hnext⟩ := Option.ne_none_iff_exists'.1 (hnumber st buf rfl)
    simp only [Scan.feed, hnext] at hf
    cases hf
    exact .within ⟨by simp, (NumState.scan_snoc hscan).trans hnext⟩

/-- Lexed from the state that follows, the token is read and then the rest. -/
theorem Progress.lexes {pre cs : List Char} {c : Char} {sc : Scan} {toks ts : List Token} (h : Progress pre c sc toks)
    (hrest : ∀ pre, Reached pre sc → Lexes (pre ++ cs) ts) : Lexes (pre ++ c :: cs) (toks ++ ts) := by
  cases h with
  | within hreached => simpa using hrest _ hreached
  | token hlexeme => simpa using Lexes.token hlexeme (hrest [] rfl)
  | blank hpre hblank =>
    rw [hpre]
    exact .blank hblank (hrest [] rfl)

theorem Reached.lexes {pre cs : List Char} {sc : Scan} {ts : List Token} (h : Reached pre sc)
    (hts : tokens sc cs = some ts) : Lexes (pre ++ cs) ts := by
  induction cs generalizing sc pre ts with
  | nil =>
    cases sc with
    | start =>
      cases h
      cases hts
      exact .nil
    | number st buf =>
      obtain ⟨rfl, hscan⟩ := h
      obtain ⟨j, hj, rfl⟩ := Option.map_eq_some_iff.1 hts
      exact .number hscan hj (by simp) .nil
    | _ => cases hts
  | cons c cs ih =>
    simp only [tokens, Option.bind_eq_bind, Option.bind_eq_some_iff, Option.some.injEq, Prod.exists] at hts
    obtain ⟨sc', toks, hf, rest, hrest, rfl⟩ := hts
    have hstep : ∀ pre', Reached pre' sc' → Lexes (pre' ++ cs) rest := fun pre' hpre' => ih hpre' hrest
    by_cases hends : ∃ st buf, sc = .number st buf ∧ st.next c = none
    · -- the number ends, and the character begins something else
      obtain ⟨st, buf, rfl, hnext⟩ := hends
      obtain ⟨rfl, hscan⟩ := h
      simp only [Scan.feed, hnext, Option.bind_eq_bind, Option.bind_eq_some_iff, Option.some.injEq, Prod.mk.injEq,
        Prod.exists] at hf
      obtain ⟨j, hj, _, toks', hstart, rfl, rfl⟩ := hf
      exact .number hscan hj (by simpa using hnext) ((progress_start hstart).lexes hstep)
    · exact (h.progress hf fun st buf hsc hnext => hends ⟨st, buf, hsc, hnext⟩).lexes hstep

/-- The lexer reads a text as the grammar does. -/
theorem tokens_iff {cs : List Char} {ts : List Token} : tokens .start cs = some ts ↔ Lexes cs ts :=
  have hstart : Reached [] .start := rfl
  ⟨fun h => hstart.lexes h, Lexes.tokens⟩

end Json
