import PullCache.Proofs.Text.Encoded
import PullCache.Proofs.Url.Address
import PullCache.Proofs.Url.Authority
/-!
# Proofs.Url.Host

Hosts as reading leaves them (`NormalHost`): names that stand for themselves, and addresses of as many
bytes as they have. The text of such a host is read as that host (`parseHost_text`), and it holds
nothing that would end it sooner or later (`spanHost_text`, `hostChar_of_mem`).
-/

namespace PullCache

open Text

variable {c : Char} {cs : List Char}

/-! ## Names of digits and points -/

/-- Pieces that were cut out come together again. -/
theorem Text.intercalate_splitOn (d : Char) (cs : List Char) :
    [d].intercalate (splitOn (· == d) cs) = cs := by
  induction cs with
  | nil => rfl
  | cons c rest ih =>
    have hsplit : splitOn (· == d) rest ≠ [] := splitOn_ne_nil rest
    rw [splitOn]
    by_cases hc : c = d
    · subst hc
      obtain ⟨first, more, hpieces⟩ := List.exists_cons_of_ne_nil hsplit
      rw [if_pos (by simp), hpieces, List.intercalate_cons_cons, ← hpieces, ih]
      rfl
    · rw [if_neg (by simpa using hc)]
      cases hpieces : splitOn (· == d) rest with
      | nil => exact absurd hpieces hsplit
      | cons first more =>
        rw [hpieces] at ih
        cases more with
        | nil => simpa using ih
        | cons second more =>
          rw [List.intercalate_cons_cons] at ih ⊢
          simpa using ih

/-- A map that changes nothing gives the list back. -/
theorem mapM_of_forall {α : Type} {f : α → Option α} {xs : List α} (h : ∀ x ∈ xs, f x = some x) :
    xs.mapM f = some xs := by
  induction xs with
  | nil => rfl
  | cons x xs ih =>
    rw [List.mapM_cons, h x List.mem_cons_self, ih fun y hy => h y (List.mem_cons_of_mem x hy)]
    rfl

namespace Domain

/-- A digit, or the point between labels. -/
def IsNumeric (c : Char) : Prop :=
  isAsciiDigit c = true ∨ c = '.'

/-- What holds of the numeric characters in ASCII holds of all of them. -/
theorem forall_numeric {P : Char → Prop} (h : ∀ n < 0x80, IsNumeric (Char.ofNat n) → P (Char.ofNat n))
    (hc : IsNumeric c) : P c := by
  have hlt : c.toNat < 0x80 := by
    obtain hc | rfl := hc
    · simp only [isAsciiDigit, Bool.and_eq_true, decide_eq_true_eq] at hc
      have : c.toNat ≤ '9'.toNat := hc.2
      exact Nat.lt_of_le_of_lt this (by decide)
    · decide
  have := h c.toNat hlt
  rw [Char.ofNat_toNat] at this
  exact this hc

instance (c : Char) : Decidable (IsNumeric c) :=
  inferInstanceAs (Decidable (_ ∨ _))

theorem ascii_of_numeric (hc : IsNumeric c) : c.toNat < 0x80 :=
  forall_numeric (P := fun c => c.toNat < 0x80) (by decide) hc

/-- Numbers need no mapping. -/
theorem plain?_of_numeric (h : ∀ c ∈ cs, IsNumeric c) : plain? cs = some cs := by
  have hletter : ∀ c ∈ cs, letters? c = some [c] := by
    intro c hc
    have hlower : lowerAscii c = c :=
      forall_numeric (P := fun c => lowerAscii c = c) (by decide) (h c hc)
    rw [letters?, if_pos (ascii_of_numeric (h c hc)), hlower]
  have hall : cs.mapM letters? = some (cs.map fun c => [c]) := by
    clear h
    induction cs with
    | nil => rfl
    | cons c cs ih =>
      rw [List.mapM_cons, hletter c List.mem_cons_self,
        ih fun d hd => hletter d (List.mem_cons_of_mem c hd)]
      rfl
  rw [plain?, hall, Option.map_some, ← List.flatMap_def]
  simp

/-- Numbers need no composition. -/
theorem canonical_of_numeric (h : ∀ c ∈ cs, IsNumeric c) : canonical cs = cs := by
  rw [canonical, if_pos]
  refine List.all_eq_true.mpr fun c hc => decide_eq_true ?_
  exact Nat.lt_trans (ascii_of_numeric (h c hc)) (by decide)

theorem isAscii_of_numeric (h : ∀ c ∈ cs, IsNumeric c) : isAscii cs = true :=
  List.all_eq_true.mpr fun c hc => decide_eq_true (ascii_of_numeric (h c hc))

/-- A number is a label as it stands. -/
theorem label?_of_numeric (h : ∀ c ∈ cs, IsNumeric c) : label? cs = some cs := by
  have hfit : isFit cs = true := by
    rw [isFit, isAscii_of_numeric h, Bool.true_or]
  unfold label?
  split
  · next form =>
    have hx := h 'x' List.mem_cons_self
    exact absurd hx (by decide)
  · exact if_pos hfit

theorem form?_of_numeric (h : ∀ c ∈ cs, IsNumeric c) : form? cs = some cs :=
  if_pos (isAscii_of_numeric h)

/-- Digits are not written from right to left. -/
theorem agree_of_numeric {labels : List (List Char)} (h : ∀ label ∈ labels, ∀ c ∈ label, IsNumeric c) :
    Direction.agree labels = true := by
  have hleftward : ∀ c, IsNumeric c → Direction.isRightward (Direction.of c) = false := fun c hc =>
    forall_numeric (P := fun c => Direction.isRightward (Direction.of c) = false) (by decide) hc
  have hnone : (labels.map fun label => label.map Direction.of).any (·.any Direction.isRightward) =
      false := by
    refine List.any_eq_false.mpr fun directions hdirections => ?_
    obtain ⟨label, hlabel, rfl⟩ := List.mem_map.mp hdirections
    rw [Bool.not_eq_true]
    refine List.any_eq_false.mpr fun direction hdirection => ?_
    obtain ⟨c, hc, rfl⟩ := List.mem_map.mp hdirection
    rw [hleftward c (h label hlabel c hc)]
    exact Bool.false_ne_true
  unfold Direction.agree
  dsimp only
  rw [hnone]
  rfl

/-- Names of digits and points stand for themselves. -/
theorem convert?_of_numeric (h : ∀ c ∈ cs, IsNumeric c) : convert? cs = some cs := by
  have hdecode : Percent.decode (Utf8.encode cs) = Utf8.encode cs := by
    have hpercent : ∀ b ∈ Utf8.encode cs, b ≠ 0x25 := by
      intro b hb
      obtain ⟨c, hc, hb⟩ := List.mem_flatMap.mp hb
      refine Utf8.ne_of_mem_encodeChar (d := '%') (by decide) ?_ hb
      rintro rfl
      exact absurd (h '%' hc) (by decide)
    have hall := Percent.decode_append_of_ne hpercent []
    rwa [List.append_nil, Percent.decode, List.append_nil] at hall
  have hpieces : ∀ label ∈ splitOn (· == '.') cs, ∀ c ∈ label, IsNumeric c := by
    intro label hlabel c hc
    refine h c ?_
    rw [← intercalate_splitOn '.' cs]
    exact mem_intercalate hlabel hc
  have hforms : forms? cs = some (splitOn (· == '.') cs) := by
    simp only [forms?, Option.bind_eq_bind, plain?_of_numeric h, Option.bind_some,
      canonical_of_numeric h, agree_of_numeric hpieces, if_true,
      mapM_of_forall fun label hlabel => label?_of_numeric (hpieces label hlabel),
      mapM_of_forall fun label hlabel => form?_of_numeric (hpieces label hlabel)]
  have hallowed : cs.any isForbidden = false := by
    refine List.any_eq_false.mpr fun c hc => ?_
    exact forall_numeric (P := fun c => ¬ isForbidden c = true) (by decide) (h c hc)
  simp only [convert?, Option.bind_eq_bind, hdecode, Utf8.decode?_encode, Option.bind_some, hforms,
    intercalate_splitOn, hallowed, Bool.false_eq_true, if_false]

/-- A name of numbers is in ASCII as it stands. -/
theorem toAscii?_of_numeric (h : ∀ c ∈ cs, IsNumeric c) : toAscii? cs = some cs := by
  rw [toAscii?, convert?_of_numeric h]
  simp [convert?_of_numeric h]

/-- A name that was read stands for itself, and nothing in it is forbidden. -/
theorem toAscii?_self {name : List Char} (h : toAscii? cs = some name) :
    toAscii? name = some name ∧ ∀ c ∈ name, isForbidden c = false := by
  obtain ⟨hname, hself⟩ := Option.filter_eq_some_iff.mp h
  have hagain : convert? name = some name := beq_iff_eq.mp hself
  refine ⟨by rw [toAscii?, hagain]; simp [hagain], ?_⟩
  rw [convert?] at hname
  obtain ⟨text, -, hname⟩ := Option.bind_eq_some_iff.mp hname
  obtain ⟨forms, -, hname⟩ := Option.bind_eq_some_iff.mp hname
  dsimp only at hname
  split at hname
  · contradiction
  · next hallowed =>
    cases hname
    exact fun c hc => by simpa using List.any_eq_false.mp (Bool.eq_false_iff.mpr hallowed) c hc

end Domain

/-! ## Hosts -/

namespace Url

/-- A host as reading leaves it. -/
inductive NormalHost : Host → Prop
  | domain {name : List Char} (self : Domain.toAscii? name = some name)
      (allowed : ∀ c ∈ name, Domain.isForbidden c = false) (nonempty : name ≠ [])
      (noNumber : Address.endsInNumber name = false) : NormalHost (.domain (String.ofList name))
  | ipv4 {n : Nat} (h : n < 4294967296) : NormalHost (.ipv4 n)
  | ipv6 {groups : List Nat} (length : groups.length = 8) (h : ∀ n ∈ groups, n < 65536) :
    NormalHost (.ipv6 groups)

/-- Every host that was read is in normal form. -/
theorem normalHost_of_parseHost {host : Host} (h : parseHost true cs = .ok host) : NormalHost host := by
  have hnoPlain := ne_plain_of_parseHost h
  rw [parseHost, if_pos rfl] at h
  split at h
  · contradiction
  · unfold specialHost at h
    split at h
    · next rest =>
      rw [plainHost] at h
      split at h
      · split at h
        · next groups hgroups =>
          cases h
          obtain ⟨hlength, hns⟩ := Address.length_of_ipv6? hgroups
          exact .ipv6 hlength hns
        · contradiction
      · contradiction
    · split at h
      · contradiction
      · contradiction
      · next name hne hname =>
        obtain ⟨hself, hallowed⟩ := Domain.toAscii?_self hname
        split at h
        · split at h
          · next n hn =>
            cases h
            exact .ipv4 (Address.ipv4?_lt hn)
          · contradiction
        · next hnumber =>
          cases h
          exact .domain hself hallowed hne (by simpa using hnumber)

variable {host : Host}

/-- A character that neither ends an authority nor separates its parts, and is no space. -/
def IsHostChar (c : Char) : Prop :=
  endsAuthority c = false ∧ c ≠ '@' ∧ 0x20 < c.toNat

instance (c : Char) : Decidable (IsHostChar c) :=
  inferInstanceAs (Decidable (_ ∧ _))

theorem isHostChar_digitChar : ∀ d < 16, IsHostChar (Nat.digitChar d) := by
  decide

/-- What is allowed in a domain is allowed in a host. -/
theorem isHostChar_of_allowed (h : Domain.isForbidden c = false) : IsHostChar c := by
  have hne : ∀ d, Domain.isForbidden d = true → c ≠ d := by
    rintro d hd rfl
    exact absurd (h.symm.trans hd) nofun
  refine ⟨?_, hne '@' (by decide), ?_⟩
  · simp [endsAuthority, isSlash, startsQuery, hne '/' (by decide), hne '\\' (by decide),
      hne '?' (by decide), hne '#' (by decide)]
  · refine Nat.lt_of_not_le fun hblank => ?_
    simp [Domain.isForbidden, hblank] at h

/-- An address of the newer kind is written between brackets. -/
theorem ipv6_text (groups : List Nat) : (Host.ipv6 groups).text.toList =
    '[' :: ((Address.ipv6Text groups).toList ++ [']']) := by
  simp [Host.text]

/-- Nothing in the text of a host belongs to something else in an authority. -/
theorem NormalHost.isHostChar (h : NormalHost host) : ∀ c ∈ host.text.toList, IsHostChar c := by
  intro c hc
  cases h with
  | domain self allowed nonempty noNumber =>
    rw [Host.text, String.toList_ofList] at hc
    exact isHostChar_of_allowed (allowed c hc)
  | ipv4 h =>
    exact Domain.forall_numeric (P := IsHostChar) (by decide) (Address.mem_ipv4Text hc)
  | ipv6 length h =>
    rw [ipv6_text, List.mem_cons, List.mem_append, List.mem_singleton] at hc
    obtain rfl | hc | rfl := hc
    · decide
    · obtain rfl | ⟨d, hd, rfl⟩ := Address.mem_ipv6Text hc
      · decide
      · exact isHostChar_digitChar d hd
    · decide

/-- No host is written as the empty text. -/
theorem NormalHost.text_ne_nil (h : NormalHost host) : host.text.toList ≠ [] := by
  cases h with
  | domain self allowed nonempty noNumber => rwa [Host.text, String.toList_ofList]
  | ipv4 h => simp [Host.text, Address.ipv4Text]
  | ipv6 length h =>
    rw [ipv6_text]
    exact List.cons_ne_nil _ _

/-- Without a bracket in front, a host is a name or an address of the older kind. -/
theorem specialHost_of_ne (h : ∀ rest, cs ≠ '[' :: rest) : specialHost cs =
    match Domain.toAscii? cs with
    | none => .error .invalidDomain
    | some [] => .error .emptyHost
    | some name =>
      if Address.endsInNumber name then
        match Address.ipv4? name with
        | some n => .ok (.ipv4 n)
        | none => .error .invalidIpv4
      else .ok (.domain (String.ofList name)) := by
  unfold specialHost
  split
  · next rest => exact absurd rfl (h rest)
  · rfl

/-- The text of a host is read as that host. -/
theorem NormalHost.parseHost_text (h : NormalHost host) :
    parseHost true host.text.toList = .ok host := by
  have hne := h.text_ne_nil
  have hempty : host.text.toList.isEmpty = false := by simpa using hne
  rw [parseHost, if_pos rfl, hempty, if_neg Bool.false_ne_true]
  cases h with
  | @domain name self allowed nonempty noNumber =>
    have hbracket : ∀ rest, name ≠ '[' :: rest := by
      rintro rest rfl
      exact absurd (allowed '[' List.mem_cons_self) (by decide)
    rw [Host.text, String.toList_ofList, specialHost_of_ne hbracket, self]
    cases name with
    | nil => exact absurd rfl nonempty
    | cons c rest =>
      dsimp only
      rw [noNumber, if_neg Bool.false_ne_true]
  | @ipv4 n h =>
    have hnumeric : ∀ c ∈ (Address.ipv4Text n).toList, Domain.IsNumeric c := fun c hc =>
      Address.mem_ipv4Text hc
    have hbracket : ∀ rest, (Address.ipv4Text n).toList ≠ '[' :: rest := by
      intro rest heq
      rw [heq] at hnumeric
      exact absurd (hnumeric '[' List.mem_cons_self) (by decide)
    rw [Host.text, specialHost_of_ne hbracket, Domain.toAscii?_of_numeric hnumeric]
    have hnumber := Address.endsInNumber_ipv4Text n
    have hread := Address.ipv4?_ipv4Text h
    rw [Host.text] at hne
    generalize (Address.ipv4Text n).toList = text at hne hnumber hread
    cases text with
    | nil => contradiction
    | cons c rest =>
      dsimp only
      rw [hnumber, if_pos rfl, hread]
  | @ipv6 groups length h =>
    rw [ipv6_text]
    simp [specialHost, plainHost, Address.ipv6?_ipv6Text length h]

/-! ## Where a host ends -/

/-- A host ends where a port or the path begins. -/
theorem spanHost_of_endsGroup {rest : List Char} (h : Address.EndsGroup rest) :
    spanHost false rest = ([], rest) := by
  obtain rfl | ⟨more, rfl⟩ := h
  · rfl
  · rfl

/-- A host without colons is read up to its end. -/
theorem spanHost_append {rest : List Char} (h : ∀ c ∈ cs, c ≠ ':' ∧ c ≠ '[')
    (hrest : Address.EndsGroup rest) : spanHost false (cs ++ rest) = (cs, rest) := by
  induction cs with
  | nil => exact spanHost_of_endsGroup hrest
  | cons c cs ih =>
    obtain ⟨hcolon, hbracket⟩ := h c List.mem_cons_self
    rw [List.cons_append, spanHost]
    simp [hcolon, hbracket, ih fun d hd => h d (List.mem_cons_of_mem c hd)]

/-- Colons between brackets end no host. -/
theorem spanHost_bracketed {rest : List Char} (h : ∀ c ∈ cs, c ≠ ']') (hrest : Address.EndsGroup rest) :
    spanHost true (cs ++ ']' :: rest) = (cs ++ [']'], rest) := by
  induction cs with
  | nil => simp [spanHost, spanHost_of_endsGroup hrest]
  | cons c cs ih =>
    have hc := h c List.mem_cons_self
    rw [List.cons_append, spanHost]
    simp [hc, ih fun d hd => h d (List.mem_cons_of_mem c hd)]

/-- A host ends where its text does, and a number may follow. -/
theorem NormalHost.spanHost_text (h : NormalHost host) {rest : List Char}
    (hrest : Address.EndsGroup rest) :
    spanHost false (host.text.toList ++ rest) = (host.text.toList, rest) := by
  cases h with
  | @domain name self allowed nonempty noNumber =>
    rw [Host.text, String.toList_ofList]
    refine spanHost_append (fun c hc => ?_) hrest
    constructor
    all_goals
      rintro rfl
      exact absurd (allowed _ hc) (by decide)
  | ipv4 h =>
    refine spanHost_append (fun c hc => ?_) hrest
    exact Domain.forall_numeric (P := fun c => c ≠ ':' ∧ c ≠ '[') (by decide) (Address.mem_ipv4Text hc)
  | @ipv6 groups length h =>
    have hinside : ∀ c ∈ (Address.ipv6Text groups).toList, c ≠ ']' := by
      have hdigit : ∀ d < 16, Nat.digitChar d ≠ ']' := by decide
      intro c hc
      obtain rfl | ⟨d, hd, rfl⟩ := Address.mem_ipv6Text hc
      · decide
      · exact hdigit d hd
    rw [ipv6_text, List.cons_append, List.append_assoc, List.singleton_append, spanHost]
    simp [spanHost_bracketed hinside hrest]

end Url

end PullCache
