import PullCache.Text.Quoted
/-!
# Proofs.Text.Quoted

Quoting is a prefix code: from a text that begins with a quoted text, the text that was quoted and
what follows it can be told (`quoted_append_inj`). It comes down to single characters: no form of one
is the beginning of the form of another (`quoteChar_append_inj`), and none begins with a quote.

The last part is about reading such a text from the wrong place. `scan` tells for each character
whether it stands between quotes; a quoted text brings a reader back to where it came from, also one
who takes its inside for the outside and its outside for the inside, if he gets through at all.
-/

namespace PullCache.Text

/-! ## Numbers -/

/-- The digits of a number are those of its sixteenth part and one more. -/
theorem toDigits_eq_append (n : Nat) : Nat.toDigits 16 n =
    (if n < 16 then [] else Nat.toDigits 16 (n / 16)) ++ [Nat.digitChar (n % 16)] := by
  by_cases h : n < 16
  · rw [Nat.toDigits_of_lt_base h, if_pos h, Nat.mod_eq_of_lt h, List.nil_append]
  · rw [Nat.toDigits_of_base_le (by decide) (Nat.le_of_not_lt h), if_neg h]

theorem digitChar_inj : ∀ d < 16, ∀ d' < 16, Nat.digitChar d = Nat.digitChar d' → d = d' := by
  decide

/-- Different numbers are written differently. -/
theorem toDigits_inj {n m : Nat} (h : Nat.toDigits 16 n = Nat.toDigits 16 m) : n = m := by
  induction n using Nat.strongRecOn generalizing m with
  | ind n ih =>
    rw [toDigits_eq_append n, toDigits_eq_append m] at h
    obtain ⟨hfront, hlast⟩ := List.append_inj' h rfl
    have hmod : n % 16 = m % 16 :=
      digitChar_inj _ (Nat.mod_lt _ (by decide)) _ (Nat.mod_lt _ (by decide)) (List.cons.inj hlast).1
    by_cases hn : n < 16 <;> by_cases hm : m < 16
    · omega
    · rw [if_pos hn, if_neg hm] at hfront
      exact absurd hfront.symm Nat.toDigits_ne_nil
    · rw [if_neg hn, if_pos hm] at hfront
      exact absurd hfront Nat.toDigits_ne_nil
    · rw [if_neg hn, if_neg hm] at hfront
      have hdiv := ih (n / 16) (by omega) hfront
      omega

/-- A digit is no brace, no quote and no backslash. -/
theorem digitChar_plain : ∀ d < 16, Nat.digitChar d ≠ '\x7d' ∧ Nat.digitChar d ≠ '"' ∧
    Nat.digitChar d ≠ '\\' := by decide

/-- Digits mean nothing in quoted text. -/
theorem plain_of_mem_toDigits {n : Nat} {c : Char} (h : c ∈ Nat.toDigits 16 n) :
    c ≠ '\x7d' ∧ c ≠ '"' ∧ c ≠ '\\' := by
  induction n using Nat.strongRecOn with
  | ind n ih =>
    rw [toDigits_eq_append, List.mem_append, List.mem_singleton] at h
    obtain h | rfl := h
    · split at h
      · contradiction
      · exact ih (n / 16) (by omega) h
    · exact digitChar_plain _ (Nat.mod_lt _ (by decide))

/-- Where the digits end can be told from the brace behind them. -/
theorem toDigits_append_inj {n m : Nat} {x y : List Char}
    (h : Nat.toDigits 16 n ++ '\x7d' :: x = Nat.toDigits 16 m ++ '\x7d' :: y) : n = m ∧ x = y := by
  have hbrace : ∀ k, '\x7d' ∉ Nat.toDigits 16 k := fun k hk => (plain_of_mem_toDigits hk).1 rfl
  obtain ⟨rest, hm, hx⟩ | ⟨rest, hn, hy⟩ := List.append_eq_append_iff.mp h
  · cases rest with
    | nil =>
      rw [List.append_nil] at hm
      exact ⟨toDigits_inj hm.symm, (List.cons.inj hx).2⟩
    | cons c rest =>
      obtain ⟨rfl, -⟩ := List.cons.inj hx
      exact absurd (hm ▸ by simp) (hbrace m)
  · cases rest with
    | nil =>
      rw [List.append_nil] at hn
      exact ⟨toDigits_inj hn, (List.cons.inj hy).2.symm⟩
    | cons c rest =>
      obtain ⟨rfl, -⟩ := List.cons.inj hy
      exact absurd (hn ▸ by simp) (hbrace n)

/-! ## Characters -/

/-- The letter that stands for a character behind a backslash. -/
def shortForm? : Char → Option Char
  | '\x00' => some '0'
  | '\t' => some 't'
  | '\r' => some 'r'
  | '\n' => some 'n'
  | '\\' => some '\\'
  | '"' => some '"'
  | _ => none

/-- How a character is written: by its letter, by its number, or as itself. -/
inductive CharForm (c : Char) : List Char → Prop where
  | short (s : Char) (letter : shortForm? c = some s) : CharForm c ['\\', s]
  | number (letter : shortForm? c = none) :
    CharForm c ('\\' :: 'u' :: '\x7b' :: (Nat.toDigits 16 c.toNat ++ ['\x7d']))
  | plain (letter : shortForm? c = none) : CharForm c [c]

/-- Every character is quoted in one of the forms. -/
theorem charForm (c : Char) : CharForm c (quoteChar c) := by
  unfold quoteChar
  split
  case h_7 =>
    have hnone : shortForm? c = none := by simp_all [shortForm?]
    split
    · exact .number hnone
    · exact .plain hnone
  all_goals exact .short _ rfl

/-- Each letter stands for one character, and none is the one that announces a number. -/
theorem shortForm?_eq_some {c s : Char} (h : shortForm? c = some s) :
    (c, s) ∈ [('\x00', '0'), ('\t', 't'), ('\r', 'r'), ('\n', 'n'), ('\\', '\\'), ('"', '"')] := by
  unfold shortForm? at h
  split at h <;> cases h <;> simp

/-- Different characters have different short forms. -/
theorem shortForm?_inj {c d s : Char} (hc : shortForm? c = some s) (hd : shortForm? d = some s) :
    c = d := by
  have hc := shortForm?_eq_some hc
  have hd := shortForm?_eq_some hd
  simp only [List.mem_cons, Prod.mk.injEq, List.not_mem_nil, or_false] at hc hd
  grind

/-- No short form looks like a number. -/
theorem shortForm?_ne_u {c : Char} : shortForm? c ≠ some 'u' := by
  intro h
  have hc := shortForm?_eq_some h
  simp at hc

/-- A character that is written as itself is no quote and no backslash. -/
theorem ne_of_shortForm?_eq_none {c : Char} (h : shortForm? c = none) : c ≠ '"' ∧ c ≠ '\\' := by
  constructor <;> rintro rfl <;> contradiction

/-- The form of a character can be told from what follows it. -/
theorem quoteChar_append_inj {c d : Char} {x y : List Char}
    (h : quoteChar c ++ x = quoteChar d ++ y) : c = d ∧ x = y := by
  generalize hfc : quoteChar c = fc at h
  generalize hfd : quoteChar d = fd at h
  have hc := hfc ▸ charForm c
  have hd := hfd ▸ charForm d
  -- The form of the first character decides how many characters are to be compared.
  cases hc with
  | short s hs =>
    cases hd with
    | short s' hs' =>
      simp only [List.cons_append, List.nil_append, List.cons.injEq, true_and] at h
      obtain ⟨rfl, rfl⟩ := h
      exact ⟨shortForm?_inj hs hs', rfl⟩
    | number =>
      simp only [List.cons_append, List.nil_append, List.cons.injEq, true_and] at h
      exact absurd (h.1 ▸ hs) shortForm?_ne_u
    | plain hs' => exact absurd (List.cons.inj h).1.symm (ne_of_shortForm?_eq_none hs').2
  | number =>
    cases hd with
    | short s' hs' =>
      simp only [List.cons_append, List.nil_append, List.cons.injEq, true_and] at h
      exact absurd (h.1 ▸ hs') shortForm?_ne_u
    | number =>
      simp only [List.cons_append, List.append_assoc, List.nil_append, List.cons.injEq,
        true_and] at h
      obtain ⟨hnumber, hrest⟩ := toDigits_append_inj h
      exact ⟨Char.toNat_inj.mp hnumber, hrest⟩
    | plain hs' => exact absurd (List.cons.inj h).1.symm (ne_of_shortForm?_eq_none hs').2
  | plain hs =>
    cases hd with
    | short => exact absurd (List.cons.inj h).1 (ne_of_shortForm?_eq_none hs).2
    | number => exact absurd (List.cons.inj h).1 (ne_of_shortForm?_eq_none hs).2
    | plain => exact List.cons.inj h

/-- No form of a character begins with a quote. -/
theorem quoteChar_append_ne (c : Char) (x y : List Char) : quoteChar c ++ x ≠ '"' :: y := by
  intro h
  generalize hfc : quoteChar c = fc at h
  cases hfc ▸ charForm c with
  | short | number => simp at h
  | plain hs => exact (ne_of_shortForm?_eq_none hs).1 (List.cons.inj h).1

/-! ## Texts -/

/-- Quoted text ends at its closing quote, whatever follows. -/
theorem quoted_append_inj {a b x y : List Char} (h : quoted a ++ x = quoted b ++ y) :
    a = b ∧ x = y := by
  simp only [quoted, List.cons_append, List.append_assoc, List.nil_append, List.cons.injEq,
    true_and] at h
  induction a generalizing b with
  | nil =>
    cases b with
    | nil => exact ⟨rfl, (List.cons.inj h).2⟩
    | cons d b =>
      rw [List.flatMap_cons, List.append_assoc] at h
      exact absurd h.symm (quoteChar_append_ne d _ x)
  | cons c a ih =>
    cases b with
    | nil =>
      rw [List.flatMap_cons, List.append_assoc] at h
      exact absurd h (quoteChar_append_ne c _ y)
    | cons d b =>
      rw [List.flatMap_cons, List.flatMap_cons, List.append_assoc, List.append_assoc] at h
      obtain ⟨rfl, hrest⟩ := quoteChar_append_inj h
      obtain ⟨rfl, rfl⟩ := ih hrest
      exact ⟨rfl, rfl⟩

/-- Items that are joined are the first one and all others behind separators. -/
theorem intercalate_cons (sep x : List Char) (xs : List (List Char)) :
    sep.intercalate (x :: xs) = x ++ xs.flatMap (sep ++ ·) := by
  induction xs generalizing x with
  | nil => simp
  | cons y ys ih => simp [List.intercalate_cons_cons, ih]

section Lists

variable {ν : Type} {item : ν → List Char}
  (item_inj : ∀ {x y a b}, item x ++ a = item y ++ b → x = y ∧ a = b)

include item_inj

/-- A list is told apart from any other by its text. -/
theorem separated_inj {xs ys : List ν}
    (h : (xs.map item).flatMap ([',', ' '] ++ ·) ++ [']'] =
      (ys.map item).flatMap ([',', ' '] ++ ·) ++ [']']) : xs = ys := by
  induction xs generalizing ys with
  | nil =>
    cases ys with
    | nil => rfl
    | cons y ys => simp at h
  | cons x xs ih =>
    cases ys with
    | nil => simp at h
    | cons y ys =>
      simp only [List.map_cons, List.flatMap_cons, List.append_assoc, List.append_cancel_left_eq] at h
      obtain ⟨rfl, hrest⟩ := item_inj h
      rw [ih hrest]

/-- A list can be told from its text if each item can be told from what follows it, and none begins
with the closing bracket. -/
theorem bracketed_inj {xs ys : List ν} (opens : ∀ x a b, item x ++ a ≠ ']' :: b)
    (h : bracketed (xs.map item) = bracketed (ys.map item)) : xs = ys := by
  simp only [bracketed, List.cons.injEq, true_and] at h
  cases xs with
  | nil =>
    cases ys with
    | nil => rfl
    | cons y ys =>
      rw [List.map_cons, intercalate_cons, List.append_assoc] at h
      exact absurd h.symm (opens y _ _)
  | cons x xs =>
    cases ys with
    | nil =>
      rw [List.map_cons, intercalate_cons, List.append_assoc] at h
      exact absurd h (opens x _ _)
    | cons y ys =>
      simp only [List.map_cons, intercalate_cons, List.append_assoc] at h
      obtain ⟨rfl, hrest⟩ := item_inj h
      rw [separated_inj item_inj hrest]

end Lists

/-! ## Reading from the wrong place -/

/-- Where a reader believes to be: outside of all quotes, between quotes, or between quotes right
behind a backslash. -/
inductive Spot where
  | outside
  | inside
  | escaped

/-- The characters that a list is written with, outside of quotes. -/
def signs : List Char :=
  ['[', ']', '(', ')', ',', ' ']

/-- What a character does to the belief of a reader. Outside of quotes, only the signs of a list are
possible. -/
def Spot.next (s : Spot) (c : Char) : Option Spot :=
  match s with
  | outside =>
    if c = '"' then some inside
    else if c ∈ signs then some outside
    else none
  | inside => if c = '"' then some outside else if c = '\\' then some escaped else some inside
  | escaped => some inside

/-- Where a reader ends, if he gets through. -/
def scan (s : Spot) (cs : List Char) : Option Spot :=
  cs.foldlM Spot.next s

/-- Text is scanned part by part. -/
theorem scan_append (s : Spot) (xs ys : List Char) :
    scan s (xs ++ ys) = (scan s xs).bind fun s => scan s ys :=
  List.foldlM_append

theorem scan_cons (s : Spot) (c : Char) (cs : List Char) :
    scan s (c :: cs) = (s.next c).bind fun s => scan s cs :=
  List.foldlM_cons

theorem scan_outside_quote (cs : List Char) : scan .outside ('"' :: cs) = scan .inside cs := rfl

theorem scan_inside_quote (cs : List Char) : scan .inside ('"' :: cs) = scan .outside cs := rfl

theorem scan_inside_backslash (c : Char) (cs : List Char) :
    scan .inside ('\\' :: c :: cs) = scan .inside cs := rfl

/-- A reader is stopped, or comes back to where he believed to be. -/
def Returns (s : Spot) (cs : List Char) : Prop :=
  scan s cs = none ∨ scan s cs = some s

/-- Two texts that lead back lead back together. -/
theorem Returns.append {s : Spot} {xs ys : List Char} (hx : Returns s xs) (hy : Returns s ys) :
    Returns s (xs ++ ys) := by
  rw [Returns, scan_append]
  obtain hx | hx := hx
  · exact .inl (by rw [hx]; rfl)
  · rw [hx]
    exact hy

/-- Signs of a list leave a reader where he is. -/
theorem scan_signs {cs : List Char} (h : ∀ c ∈ cs, c ∈ signs) :
    scan .outside cs = some .outside ∧ scan .inside cs = some .inside := by
  induction cs with
  | nil => exact ⟨rfl, rfl⟩
  | cons c cs ih =>
    obtain ⟨hout, hin⟩ := ih fun d hd => h d (List.mem_cons_of_mem c hd)
    have hc := h c List.mem_cons_self
    have hquote : c ≠ '"' := by rintro rfl; simp [signs] at hc
    have hslash : c ≠ '\\' := by rintro rfl; simp [signs] at hc
    rw [scan_cons, scan_cons]
    simp [Spot.next, hquote, hslash, hc, hout, hin]

/-- Plain characters stay inside the quotes. -/
theorem scan_inside_of_plain {cs : List Char} (h : ∀ c ∈ cs, c ≠ '"' ∧ c ≠ '\\') :
    scan .inside cs = some .inside := by
  induction cs with
  | nil => rfl
  | cons c cs ih =>
    obtain ⟨hquote, hslash⟩ := h c List.mem_cons_self
    rw [scan_cons]
    simp [Spot.next, hquote, hslash, ih fun d hd => h d (List.mem_cons_of_mem c hd)]

/-- A quoted character stays inside the quotes. -/
theorem scan_inside_quoteChar (c : Char) : scan .inside (quoteChar c) = some .inside := by
  generalize hfc : quoteChar c = fc
  cases hfc ▸ charForm c with
  | short s hs => rfl
  | number hs =>
    rw [scan_inside_backslash]
    refine scan_inside_of_plain fun d hd => ?_
    simp only [List.mem_cons, List.mem_append, List.not_mem_nil, or_false] at hd
    obtain rfl | hd | rfl := hd
    · decide
    · exact (plain_of_mem_toDigits hd).2
    · decide
  | plain hs => exact scan_inside_of_plain (by simpa using ne_of_shortForm?_eq_none hs)

/-- A reader who is wrong about a character in a quoted text is stopped, or stays wrong. -/
theorem returns_quoteChar (c : Char) : Returns .outside (quoteChar c) := by
  generalize hfc : quoteChar c = fc
  cases hfc ▸ charForm c with
  | short | number => exact .inl rfl
  | plain hs =>
    simp only [Returns, scan_cons, Spot.next, (ne_of_shortForm?_eq_none hs).1, if_false]
    split
    · exact .inr rfl
    · exact .inl rfl

/-- Quoted text leads out of its quotes again. -/
theorem scan_outside_quoted (cs : List Char) : scan .outside (quoted cs) = some .outside := by
  have hinside : scan .inside (cs.flatMap quoteChar) = some .inside := by
    induction cs with
    | nil => rfl
    | cons c cs ih => rw [List.flatMap_cons, scan_append, scan_inside_quoteChar, Option.bind_some, ih]
  rw [quoted, scan_outside_quote, scan_append, hinside]
  rfl

/-- A reader who takes the outside of a quoted text for its inside does so behind it too. -/
theorem returns_quoted (cs : List Char) : Returns .inside (quoted cs) := by
  have houtside : Returns .outside (cs.flatMap quoteChar) := by
    induction cs with
    | nil => exact .inr rfl
    | cons c cs ih =>
      rw [List.flatMap_cons]
      exact (returns_quoteChar c).append ih
  rw [Returns, quoted, scan_inside_quote, scan_append]
  obtain h | h := houtside
  · exact .inl (by rw [h]; rfl)
  · exact .inr (by rw [h]; rfl)

end PullCache.Text
