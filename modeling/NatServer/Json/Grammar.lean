import NatServer.Json.Lexer
/-!
# The grammar of the parser

`Derives` is the grammar of JSON over tokens, without states and stacks. The
parser accepts what the grammar derives and nothing else, and the value it
builds on the way is the one the grammar gives: with the lexer's grammar that
says what texts are accepted, and as what (`parse_iff`).
-/

namespace Json

/-- A nonterminal and what it stands for. The items and members are the one
or more between the brackets. -/
inductive Phrase where
  | value (j : Json)
  | items (l : List Json)
  | members (l : List (String × Json))

inductive Derives : Phrase → List Token → Prop
  | scalar (j : Json) : Derives (.value j) [.scalar j]
  | emptyArray : Derives (.value (array [])) [.begin_array, .end_array]
  | array {l ts} : Derives (.items l) ts → Derives (.value (array l)) (.begin_array :: ts ++ [.end_array])
  | emptyObject : Derives (.value (object ∅)) [.begin_object, .end_object]
  -- of the members with one key the last counts
  | object {l ts} : Derives (.members l) ts →
      Derives (.value (object (addAll ∅ l))) (.begin_object :: ts ++ [.end_object])
  | item {j ts} : Derives (.value j) ts → Derives (.items [j]) ts
  | items {l j ts ts'} : Derives (.items l) ts → Derives (.value j) ts' →
      Derives (.items (l ++ [j])) (ts ++ .value_separator :: ts')
  | member {j ts} (k : String) : Derives (.value j) ts →
      Derives (.members [(k, j)]) (.scalar (string k) :: .name_separator :: ts)
  | members {l j ts ts'} (k : String) : Derives (.members l) ts → Derives (.value j) ts' →
      Derives (.members (l ++ [(k, j)])) (ts ++ .value_separator :: .scalar (string k) :: .name_separator :: ts')

/-! ## What is derived is accepted -/

/-- The parser gets over the tokens of the phrase with its value in hand. -/
def Phrase.Read (ts : List Token) : Phrase → Prop
  | .value j => ∀ p stack rest, Expects p stack →
      (ts ++ rest).foldlM Parser.onToken p = rest.foldlM Parser.onToken (.deliver j stack)
  | .items l => ∀ p stack rest, Expects p (.array [] :: stack) →
      (ts ++ rest).foldlM Parser.onToken p = rest.foldlM Parser.onToken (.arrayNext l.reverse stack)
  | .members l => ∀ stack rest, (ts ++ rest).foldlM Parser.onToken (.keyOrEnd stack) =
      rest.foldlM Parser.onToken (.objectNext (addAll ∅ l) stack)

theorem foldlM_token {p p' : Parser} {t : Token} (h : p.onToken t = some p') (ts : List Token) :
    (t :: ts).foldlM Parser.onToken p = ts.foldlM Parser.onToken p' := by
  rw [List.foldlM_cons, h]
  rfl

theorem addAll_snoc (l : List (String × Json)) (k : String) (j : Json) :
    addAll ∅ (l ++ [(k, j)]) = (addAll ∅ l).insert k j := by
  simp [addAll]

theorem Derives.read {phrase : Phrase} {ts : List Token} (h : Derives phrase ts) : phrase.Read ts := by
  induction h with
  | scalar j =>
    intro p stack rest hp
    exact foldlM_token (hp.scalar j) rest
  | emptyArray =>
    intro p stack rest hp
    rw [List.cons_append, foldlM_token hp.begin_array]
    exact foldlM_token rfl rest
  | @array l ts _ ih =>
    intro p stack rest hp
    rw [List.cons_append, List.cons_append, foldlM_token hp.begin_array, List.append_assoc,
      ih _ stack _ (.inr ⟨stack, rfl, rfl⟩), List.singleton_append]
    exact foldlM_token (by simp [Parser.onToken]) rest
  | emptyObject =>
    intro p stack rest hp
    rw [List.cons_append, foldlM_token hp.begin_object]
    exact foldlM_token rfl rest
  | object _ ih =>
    intro p stack rest hp
    rw [List.cons_append, List.cons_append, foldlM_token hp.begin_object, List.append_assoc, ih stack,
      List.singleton_append]
    exact foldlM_token rfl rest
  | item _ ih => exact fun p stack rest hp => ih p _ rest hp
  | @items l j ts ts' _ _ ihl ih =>
    intro p stack rest hp
    rw [List.append_assoc, ihl p stack _ hp, List.cons_append, foldlM_token rfl, ih _ _ rest (.inl rfl),
      List.reverse_append]
    rfl
  | member k _ ih =>
    intro stack rest
    have hkey : (Parser.keyOrEnd stack).onToken (.scalar (string k)) = some (.separator ∅ k stack) := by
      simp [Parser.onToken, Parser.onKey]
    rw [List.cons_append, foldlM_token hkey, List.cons_append, foldlM_token rfl]
    exact ih _ _ rest (.inl rfl)
  | @members l j ts ts' k _ _ ihl ih =>
    intro stack rest
    have hkey : (Parser.key (addAll ∅ l) stack).onToken (.scalar (string k)) =
        some (.separator (addAll ∅ l) k stack) := by
      simp [Parser.onToken, Parser.onKey]
    rw [List.append_assoc, ihl stack, List.cons_append, foldlM_token rfl, List.cons_append, foldlM_token hkey,
      List.cons_append, foldlM_token rfl, ih _ _ rest (.inl rfl), addAll_snoc]
    rfl

/-! ## What is accepted is derived -/

/-- The part of a list before its next element: nothing, or a list and a comma. -/
inductive Before {α : Type} (phrase : List α → Phrase) : List α → List Token → Prop
  | first : Before phrase [] []
  | next {l ts} : Derives (phrase l) ts → Before phrase l (ts ++ [.value_separator])

/-- The tokens that open the containers of the stack, up to where a value is
expected. -/
inductive Opened : List Frame → List Token → Prop
  | nil : Opened [] []
  | array {stack ts l us} : Opened stack ts → Before .items l us →
      Opened (.array l.reverse :: stack) (ts ++ .begin_array :: us)
  | object {stack ts l us} (k : String) : Opened stack ts → Before .members l us →
      Opened (.object (addAll ∅ l) k :: stack) (ts ++ .begin_object :: us ++ [.scalar (string k), .name_separator])

/-- The tokens that lead to a state of the parser. -/
inductive Reads : Parser → List Token → Prop
  | value {stack ts} : Opened stack ts → Reads (.value stack) ts
  | valueOrEnd {stack ts} : Opened stack ts → Reads (.valueOrEnd stack) (ts ++ [.begin_array])
  | keyOrEnd {stack ts} : Opened stack ts → Reads (.keyOrEnd stack) (ts ++ [.begin_object])
  | key {stack ts l us} : Opened stack ts → Derives (.members l) us →
      Reads (.key (addAll ∅ l) stack) (ts ++ .begin_object :: us ++ [.value_separator])
  | separator {stack ts l us} (k : String) : Opened stack ts → Before .members l us →
      Reads (.separator (addAll ∅ l) k stack) (ts ++ .begin_object :: us ++ [.scalar (string k)])
  | arrayNext {stack ts l us} : Opened stack ts → Derives (.items l) us →
      Reads (.arrayNext l.reverse stack) (ts ++ .begin_array :: us)
  | objectNext {stack ts l us} : Opened stack ts → Derives (.members l) us →
      Reads (.objectNext (addAll ∅ l) stack) (ts ++ .begin_object :: us)
  | done {j ts} : Derives (.value j) ts → Reads (.done j) ts

theorem Before.items {l : List Json} {j : Json} {us ts : List Token} (h : Before .items l us)
    (hj : Derives (.value j) ts) : Derives (.items (l ++ [j])) (us ++ ts) := by
  cases h with
  | first => exact .item hj
  | next hl => simpa using Derives.items hl hj

theorem Before.members {l : List (String × Json)} {k : String} {j : Json} {us ts : List Token}
    (h : Before .members l us) (hj : Derives (.value j) ts) :
    Derives (.members (l ++ [(k, j)])) (us ++ .scalar (string k) :: .name_separator :: ts) := by
  cases h with
  | first => exact .member k hj
  | next hl => simpa using Derives.members k hl hj

/-- A value is read where one was expected. -/
theorem Opened.deliver {stack : List Frame} {j : Json} {ts us : List Token} (h : Opened stack ts)
    (hj : Derives (.value j) us) : Reads (.deliver j stack) (ts ++ us) := by
  cases h with
  | nil => exact .done hj
  | array ho hl => simpa [Parser.deliver] using Reads.arrayNext ho (hl.items hj)
  | object k ho hl => simpa [addAll_snoc, Parser.deliver] using Reads.objectNext ho (hl.members hj)

theorem Opened.onValue {stack : List Frame} {ts : List Token} {t : Token} {p : Parser} (h : Opened stack ts)
    (hp : Parser.onValue stack t = some p) : Reads p (ts ++ [t]) := by
  cases t with
  | begin_object =>
    cases hp
    exact .keyOrEnd h
  | begin_array =>
    cases hp
    exact .valueOrEnd h
  | scalar j =>
    cases hp
    exact h.deliver (.scalar j)
  | _ => cases hp

theorem Opened.onKey {stack : List Frame} {l : List (String × Json)} {ts us : List Token} {t : Token} {p : Parser}
    (h : Opened stack ts) (hl : Before .members l us) (hp : Parser.onKey (addAll ∅ l) stack t = some p) :
    Reads p (ts ++ .begin_object :: us ++ [t]) := by
  cases t with
  | scalar j =>
    rw [Parser.onKey] at hp
    split at hp
    · next k hk =>
      cases hp
      rw [eq_of_view hk]
      exact .separator k h hl
    · cases hp
  | _ => cases hp

theorem Reads.onToken {p p' : Parser} {t : Token} {ts : List Token} (h : Reads p ts) (hp : p.onToken t = some p') :
    Reads p' (ts ++ [t]) := by
  cases h with
  | value ho => exact ho.onValue hp
  | valueOrEnd ho =>
    have hopen : Opened (.array [] :: _) _ := .array ho .first
    cases t with
    | end_array =>
      cases hp
      simpa using ho.deliver .emptyArray
    | _ => exact hopen.onValue hp
  | keyOrEnd ho =>
    cases t with
    | end_object =>
      cases hp
      simpa using ho.deliver .emptyObject
    | _ => exact ho.onKey .first hp
  | key ho hl => simpa using ho.onKey (.next hl) hp
  | separator k ho hl =>
    cases t with
    | name_separator =>
      cases hp
      simpa using Reads.value (.object k ho hl)
    | _ => cases hp
  | arrayNext ho hl =>
    cases t with
    | value_separator =>
      cases hp
      simpa using Reads.value (.array ho (.next hl))
    | end_array =>
      cases hp
      simpa using ho.deliver (.array hl)
    | _ => cases hp
  | objectNext ho hl =>
    cases t with
    | value_separator =>
      cases hp
      exact .key ho hl
    | end_object =>
      cases hp
      simpa using ho.deliver (.object hl)
    | _ => cases hp
  | done => cases hp

theorem Reads.foldlM {us ts : List Token} {p p' : Parser} (h : Reads p ts)
    (hp : us.foldlM Parser.onToken p = some p') : Reads p' (ts ++ us) := by
  induction us generalizing p ts with
  | nil =>
    cases hp
    simpa using h
  | cons t us ih =>
    rw [List.foldlM_cons] at hp
    obtain ⟨p₁, hfirst, hrest⟩ := Option.bind_eq_some_iff.1 hp
    simpa using ih (h.onToken hfirst) hrest

theorem foldlM_onToken_iff {ts : List Token} {j : Json} :
    ts.foldlM Parser.onToken (.value []) = some (.done j) ↔ Derives (.value j) ts := by
  constructor
  · intro h
    have hreads := (Reads.value .nil).foldlM h
    cases hreads with
    | done hj => exact hj
  · intro h
    have hread := h.read (.value []) [] [] (.inl rfl)
    rwa [List.append_nil] at hread

/-! ## The text -/

/-- Lexer and parser take turns, which makes no difference. -/
theorem run_eq_some_iff {sc : Scan} {p : Parser} {cs : List Char} {j : Json} :
    run (sc, p) cs = some j ↔ ∃ ts, tokens sc cs = some ts ∧ ts.foldlM Parser.onToken p = some (.done j) := by
  induction cs generalizing sc p with
  | nil =>
    simp only [run, List.foldlM_nil, finish, tokens, Option.pure_def, Option.bind_eq_bind, Option.bind_some,
      Option.bind_eq_some_iff]
    refine exists_congr fun ts => and_congr_right fun _ => ⟨?_, fun h => ⟨_, h, rfl⟩⟩
    rintro ⟨p', hp', h⟩
    cases p' with
    | done j' =>
      cases h
      exact hp'
    | _ => cases h
  | cons c cs ih =>
    rw [run_cons, feed, tokens]
    simp only [Option.bind_eq_bind, Option.bind_eq_some_iff, Option.some.injEq, Prod.exists]
    constructor
    · rintro ⟨_, _, ⟨_, toks, hsc, p', hp', heq⟩, hrest⟩
      cases heq
      obtain ⟨ts, hts, hdone⟩ := ih.1 hrest
      refine ⟨_, ⟨_, toks, hsc, ts, hts, rfl⟩, ?_⟩
      rw [List.foldlM_append, hp', Option.bind_eq_bind, Option.bind_some, hdone]
    · rintro ⟨_, ⟨sc', toks, hsc, ts, hts, rfl⟩, hdone⟩
      rw [List.foldlM_append] at hdone
      obtain ⟨p', hp', hdone⟩ := Option.bind_eq_some_iff.1 hdone
      exact ⟨_, _, ⟨sc', toks, hsc, p', hp', rfl⟩, ih.2 ⟨ts, hts, hdone⟩⟩

/-- `parse` accepts a text where it is cut into tokens that are a value of the
grammar, and that is the value it returns. -/
theorem parse_iff (s : String) (j : Json) :
    parse s = some j ↔ ∃ ts, Lexes (inputOf s.toList) ts ∧ Derives (.value j) ts := by
  simp only [parse, run_eq_some_iff, foldlM_onToken_iff, tokens_iff]

end Json
