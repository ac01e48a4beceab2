import Mathlib.Data.Nat.Digits.Lemmas
import PullCache.Proofs.Text.Digits
import PullCache.Proofs.Text.Split
import PullCache.Url.Address
/-!
# Proofs.Url.Address

Addresses by number and their texts. An IPv4 address is one number of four bytes, and an IPv6 address
is eight groups of two bytes (`length_of_ipv6?`); the text of either is read as that address again
(`ipv4?_ipv4Text`, `ipv6?_ipv6Text`). In the text of an IPv6 address a run of zeros is left out, and
where it was is told by the number of the groups that are there.
-/

namespace PullCache.Address

open Text

variable {n limit : Nat} {c : Char} {cs rest : List Char} {ns : List Nat}

/-! ## IPv6: groups -/

/-- Splitting the digits off loses nothing. -/
theorem spanDigits_append (most : Nat) (cs : List Char) :
    (spanDigits most cs).1 ++ (spanDigits most cs).2 = cs := by
  induction most generalizing cs with
  | zero => rfl
  | succ most ih =>
    cases cs with
    | nil => rfl
    | cons c rest =>
      rw [spanDigits]
      split
      · exact congrArg (c :: ·) (ih rest)
      · rfl

/-- Without a point nothing is read as four bytes. -/
theorem dotted?_eq_none (h : '.' ∉ cs) : dotted? cs = none := by
  refine Option.eq_none_iff_forall_ne_some.mpr fun found hfound => ?_
  rw [dotted?] at hfound
  obtain ⟨⟨a, rest⟩, hbyte, hfound⟩ := Option.bind_eq_some_iff.mp hfound
  obtain ⟨more, hexpect, -⟩ := Option.bind_eq_some_iff.mp hfound
  have hrest : rest = (spanDigits 3 cs).2 := by
    rw [byte?] at hbyte
    dsimp only at hbyte
    split at hbyte
    · contradiction
    · cases hbyte
      rfl
  refine h (spanDigits_append 3 cs ▸ List.mem_append_right _ (hrest ▸ ?_))
  cases rest with
  | nil => contradiction
  | cons d rest =>
    rw [expect?] at hexpect
    split at hexpect
    · next hd => exact hd ▸ List.mem_cons_self
    · contradiction

/-- What can follow a group: nothing, or a colon. -/
def EndsGroup (rest : List Char) : Prop :=
  rest = [] ∨ ∃ more, rest = ':' :: more

/-- What ends a group begins with no digit. -/
theorem takeWhile_digit_of_endsGroup (h : EndsGroup rest) :
    rest.takeWhile (fun c => (digitValue? c).isSome) = [] := by
  obtain rfl | ⟨more, rfl⟩ := h
  · rfl
  · exact List.takeWhile_cons_of_neg (by decide)

theorem length_toDigits_le_four (h : n < 65536) : (Nat.toDigits 16 n).length ≤ 4 :=
  (Nat.length_toDigits_le_iff (by decide) (by decide)).mpr h

/-- A group is read back as it was written, whatever ends it. -/
theorem group?_toDigits (h : n < 65536) (hends : EndsGroup rest) :
    group? (Nat.toDigits 16 n ++ rest) = some (n, rest) := by
  have hall : ∀ c ∈ Nat.toDigits 16 n, (digitValue? c).isSome = true := by
    intro c hc
    obtain ⟨d, hd, rfl⟩ := exists_of_mem_toDigits (by decide) hc
    rw [digitValue?_digitChar d hd]
    rfl
  have hrest : EndsGroup (rest.take (4 - (Nat.toDigits 16 n).length)) := by
    obtain rfl | ⟨more, rfl⟩ := hends
    · exact .inl List.take_nil
    · cases 4 - (Nat.toDigits 16 n).length with
      | zero => exact .inl rfl
      | succ k => exact .inr ⟨_, List.take_succ_cons⟩
  have hdigits : ((Nat.toDigits 16 n ++ rest).take 4).takeWhile (fun c => (digitValue? c).isSome) =
      Nat.toDigits 16 n := by
    rw [List.take_append, List.take_of_length_le (length_toDigits_le_four h),
      List.takeWhile_append_of_pos hall, takeWhile_digit_of_endsGroup hrest, List.append_nil]
  rw [group?, hdigits, natOfDigits?_toDigits (by decide) (by decide)]
  simp

/-- Where a group ends no other one begins. -/
theorem group?_of_endsGroup (h : EndsGroup rest) : group? rest = none := by
  have hdigits : (rest.take 4).takeWhile (fun c => (digitValue? c).isSome) = [] := by
    refine takeWhile_digit_of_endsGroup ?_
    obtain rfl | ⟨more, rfl⟩ := h
    · exact .inl rfl
    · exact .inr ⟨_, rfl⟩
  rw [group?, hdigits]
  rfl

/-- The digits of groups, with a colon between them. -/
def joined (ns : List Nat) : List Char :=
  [':'].intercalate (ns.map (Nat.toDigits 16))

/-- Groups are written with colons between them. -/
theorem groupsText_eq (ns : List Nat) : (groupsText ns).toList = joined ns := by
  rw [groupsText, String.toList_intercalate, List.map_map, joined]
  congr 1
  exact List.map_congr_left fun n _ => String.toList_ofList

/-- The text of groups has colons and digits only. -/
theorem mem_joined (h : c ∈ joined ns) : c = ':' ∨ ∃ d < 16, c = Nat.digitChar d := by
  induction ns with
  | nil => simp [joined] at h
  | cons n ns ih =>
    have hhere : c ∈ Nat.toDigits 16 n → ∃ d < 16, c = Nat.digitChar d :=
      exists_of_mem_toDigits (by decide)
    cases ns with
    | nil =>
      rw [joined, List.map_singleton, List.intercalate_singleton] at h
      exact .inr (hhere h)
    | cons m ns =>
      rw [joined, List.map_cons, List.map_cons, List.intercalate_cons_cons, List.mem_append,
        List.mem_append, List.mem_singleton] at h
      obtain (h | h) | h := h
      · exact .inr (hhere h)
      · exact .inl h
      · exact ih h

theorem point_not_mem_joined (ns : List Nat) : '.' ∉ joined ns := by
  have hdigit : ∀ d < 16, Nat.digitChar d ≠ '.' := by decide
  intro h
  obtain h | ⟨d, hd, heq⟩ := mem_joined h
  · contradiction
  · exact hdigit d hd heq.symm

/-- Without digits no group is read. -/
theorem groups_of_endsGroup (limit : Nat) {rest : List Char} (hends : EndsGroup rest)
    (hpoint : '.' ∉ rest) : groups limit rest = ([], false, rest) := by
  cases limit with
  | zero => rfl
  | succ limit => simp [groups, dotted?_eq_none hpoint, group?_of_endsGroup hends]

/-- Groups are read up to the end of the text, or to two colons. -/
theorem groups_joined (limit : Nat) (ns : List Nat) (rest : List Char) (hlength : ns.length ≤ limit)
    (hns : ∀ n ∈ ns, n < 65536) (hrest : rest = [] ∨ ∃ more, rest = ':' :: ':' :: more)
    (hpoint : '.' ∉ rest) : groups limit (joined ns ++ rest) = (ns, false, rest) := by
  have hends : EndsGroup rest := hrest.imp_right fun ⟨more, h⟩ => ⟨_, h⟩
  induction ns generalizing limit with
  | nil => exact groups_of_endsGroup limit hends hpoint
  | cons n ns ih =>
    have hn := hns n List.mem_cons_self
    obtain ⟨limit, rfl⟩ : ∃ k, limit = k + 1 := ⟨limit - 1, by simp at hlength; omega⟩
    have hnone : (if limit = 0 then none else dotted? (joined (n :: ns) ++ rest)) = none := by
      rw [dotted?_eq_none]
      · exact ite_self none
      · rw [List.mem_append, not_or]
        exact ⟨point_not_mem_joined _, hpoint⟩
    rw [groups, hnone]
    cases ns with
    | nil =>
      have htext : joined [n] = Nat.toDigits 16 n := by simp [joined]
      rw [htext, group?_toDigits hn hends]
      obtain rfl | ⟨more, rfl⟩ := hrest
      · rfl
      · have hmore : '.' ∉ ':' :: more := fun h => hpoint (List.mem_cons_of_mem _ h)
        simp [groups_of_endsGroup limit (.inr ⟨more, rfl⟩) hmore]
    | cons m ns =>
      have htext : joined (n :: m :: ns) ++ rest =
          Nat.toDigits 16 n ++ ':' :: (joined (m :: ns) ++ rest) := by
        simp [joined, List.intercalate_cons_cons]
      have hmore := ih limit (by simpa using hlength) fun k hk => hns k (List.mem_cons_of_mem n hk)
      rw [htext, group?_toDigits hn (.inr ⟨_, rfl⟩)]
      simp [hmore]

/-! ## IPv6: the run that is left out -/

/-- The zeros in front are part of the groups. -/
theorem zeroRun_le_length (ns : List Nat) : zeroRun ns ≤ ns.length :=
  (List.takeWhile_sublist _).length_le

/-- And they are zeros. -/
theorem take_zeroRun (ns : List Nat) : ns.take (zeroRun ns) = List.replicate (zeroRun ns) 0 := by
  have htake : ns.take (zeroRun ns) = ns.takeWhile (· == 0) := by
    have hsplit := List.takeWhile_append_dropWhile (p := (· == 0)) (l := ns)
    have hleft : (ns.takeWhile (· == 0) ++ ns.dropWhile (· == 0)).take (zeroRun ns) =
        ns.takeWhile (· == 0) := List.take_left
    rwa [hsplit] at hleft
  rw [htake]
  refine List.eq_replicate_iff.mpr ⟨rfl, fun n hn => ?_⟩
  simpa using List.all_eq_true.mp List.all_takeWhile n hn

/-- What holds of everything that a search may keep holds of what it finds. -/
theorem forall_mem_foldl {α β : Type} {P : β → Prop} {f : Option β → α → Option β}
    (hf : ∀ best x, (∀ found ∈ best, P found) → ∀ found ∈ f best x, P found) (xs : List α) :
    ∀ found ∈ xs.foldl f none, P found := by
  have hfold : ∀ best, (∀ found ∈ best, P found) → ∀ found ∈ xs.foldl f best, P found := by
    induction xs with
    | nil => exact fun best hbest => hbest
    | cons x xs ih => exact fun best hbest => ih _ (hf best x hbest)
  exact hfold none nofun

/-- The run that is left out is one of at least two zeros. -/
theorem longestRun_spec {start length : Nat} (h : longestRun ns = some (start, length)) :
    2 ≤ length ∧ length = zeroRun (ns.drop start) := by
  refine forall_mem_foldl (P := fun run => 2 ≤ run.2 ∧ run.2 = zeroRun (ns.drop run.1))
    (fun best i hbest => ?_) _ (start, length) h
  have hhere : ¬ zeroRun (ns.drop i) < 2 → ∀ found ∈ some (i, zeroRun (ns.drop i)),
      2 ≤ found.2 ∧ found.2 = zeroRun (ns.drop found.1) := by
    rintro hlong found ⟨⟩
    exact ⟨Nat.le_of_not_lt hlong, rfl⟩
  dsimp only
  split
  · exact hbest
  · next hlong =>
    split
    · split
      · exact hhere hlong
      · exact hbest
    · exact hhere hlong

/-- The text of an address is made of digits and colons. -/
theorem mem_ipv6Text (h : c ∈ (ipv6Text ns).toList) : c = ':' ∨ ∃ d < 16, c = Nat.digitChar d := by
  unfold ipv6Text at h
  split at h
  · rw [groupsText_eq] at h
    exact mem_joined h
  · next start length _ =>
    have htext : (groupsText (ns.take start) ++ "::" ++ groupsText (ns.drop (start + length))).toList =
        joined (ns.take start) ++ [':', ':'] ++ joined (ns.drop (start + length)) := by
      simp [groupsText_eq]
    rw [htext, List.mem_append, List.mem_append] at h
    obtain (h | h) | h := h
    · exact mem_joined h
    · exact .inl (by simpa using h)
    · exact mem_joined h

/-- The text of an address of eight groups is read as these groups. -/
theorem ipv6?_ipv6Text (hlength : ns.length = 8) (hns : ∀ n ∈ ns, n < 65536) :
    ipv6? (ipv6Text ns).toList = some ns := by
  unfold ipv6Text
  cases hrun : longestRun ns with
  | none =>
    have hread := groups_joined 8 ns [] (Nat.le_of_eq hlength) hns (.inl rfl) (by simp)
    rw [List.append_nil] at hread
    simp [ipv6?, ipv6Start?, groupsText_eq, hread, hlength]
  | some run =>
    obtain ⟨start, length⟩ := run
    obtain ⟨htwo, hzeros⟩ := longestRun_spec hrun
    have hinside : start + length ≤ 8 := by
      have := zeroRun_le_length (ns.drop start)
      rw [← hzeros, List.length_drop, hlength] at this
      omega
    have hfront : (ns.take start).length = start := by
      rw [List.length_take, hlength]
      omega
    have hback : (ns.drop (start + length)).length = 8 - start - length := by
      rw [List.length_drop, hlength]
      omega
    have hreadFront := groups_joined 8 (ns.take start)
      (':' :: ':' :: joined (ns.drop (start + length))) (by omega)
      (fun n hn => hns n (List.mem_of_mem_take hn)) (.inr ⟨_, rfl⟩)
      (by simp [point_not_mem_joined])
    have hreadBack := groups_joined (7 - start) (ns.drop (start + length)) []
      (by omega) (fun n hn => hns n (List.mem_of_mem_drop hn)) (.inl rfl) (by simp)
    rw [List.append_nil] at hreadBack
    have hall : ns.take start ++ List.replicate length 0 ++ ns.drop (start + length) = ns := by
      rw [hzeros, ← take_zeroRun, ← hzeros, List.append_assoc, ← List.drop_drop,
        List.take_append_drop, List.take_append_drop]
    have hmissing : 8 - start - (8 - start - length) = length := by omega
    have hshort : start ≠ 8 := by omega
    have htext : (groupsText (ns.take start) ++ "::" ++ groupsText (ns.drop (start + length))).toList =
        joined (ns.take start) ++ ':' :: ':' :: joined (ns.drop (start + length)) := by
      simp [groupsText_eq]
    simp only [htext, ipv6?, ipv6Start?, hreadFront, hfront, hshort, if_false, hreadBack, hback,
      hmissing, hall, Bool.false_eq_true]

/-! ## IPv6: what is read -/

/-- A byte is at most 255. -/
theorem byte?_le {rest : List Char} (h : byte? cs = some (n, rest)) : n ≤ 255 := by
  rw [byte?] at h
  dsimp only at h
  split at h
  · contradiction
  · next hfits =>
    cases h
    omega

/-- Four bytes make a number of 32 bits. -/
theorem dotted?_lt {rest : List Char} (h : dotted? cs = some (n, rest)) : n < 4294967296 := by
  rw [dotted?] at h
  obtain ⟨⟨a, rest₁⟩, ha, h⟩ := Option.bind_eq_some_iff.mp h
  obtain ⟨rest₁, -, h⟩ := Option.bind_eq_some_iff.mp h
  obtain ⟨⟨b, rest₂⟩, hb, h⟩ := Option.bind_eq_some_iff.mp h
  obtain ⟨rest₂, -, h⟩ := Option.bind_eq_some_iff.mp h
  obtain ⟨⟨c, rest₃⟩, hc, h⟩ := Option.bind_eq_some_iff.mp h
  obtain ⟨rest₃, -, h⟩ := Option.bind_eq_some_iff.mp h
  obtain ⟨⟨d, rest₄⟩, hd, h⟩ := Option.bind_eq_some_iff.mp h
  cases h
  have ha := byte?_le ha
  have hb := byte?_le hb
  have hc := byte?_le hc
  have hd := byte?_le hd
  omega

/-- A group is a number of 16 bits. -/
theorem group?_lt {rest : List Char} (h : group? cs = some (n, rest)) : n < 65536 := by
  rw [group?] at h
  obtain ⟨m, hm, h⟩ := Option.bind_eq_some_iff.mp h
  cases h
  have hlength : ((cs.take 4).takeWhile fun c => (digitValue? c).isSome).length ≤ 4 :=
    Nat.le_trans (List.takeWhile_sublist _).length_le (by simp)
  exact Nat.lt_of_lt_of_le (natOfDigits?_lt hm) (Nat.pow_le_pow_right (by decide) hlength)

/-- No more groups are read than there is room for, and each is of two bytes. -/
theorem groups_bounded (limit : Nat) (cs : List Char) :
    (groups limit cs).1.length ≤ limit ∧ ∀ n ∈ (groups limit cs).1, n < 65536 := by
  induction limit generalizing cs with
  | zero => exact ⟨Nat.le_refl _, by simp [groups]⟩
  | succ limit ih =>
    rw [groups]
    split
    · next n rest hdotted =>
      have hroom : limit ≠ 0 := by
        rintro rfl
        contradiction
      rw [if_neg hroom] at hdotted
      have hn := dotted?_lt hdotted
      refine ⟨by simp; omega, ?_⟩
      intro m hm
      simp only [List.mem_cons, List.not_mem_nil, or_false] at hm
      omega
    · split
      · exact ⟨by simp, by simp⟩
      · next n rest hgroup =>
        have hn := group?_lt hgroup
        have hone : [n].length ≤ limit + 1 ∧ ∀ m ∈ [n], m < 65536 := ⟨by simp, by simpa using hn⟩
        split
        · next more =>
          have hmore := ih more
          split
          · exact hone
          · next ns dotted rest hread =>
            rw [hread] at hmore
            refine ⟨by simpa using hmore.1, fun m hm => ?_⟩
            obtain rfl | hm := List.mem_cons.mp hm
            · exact hn
            · exact hmore.2 m hm
        · exact hone

/-- An address has eight groups of two bytes each. -/
theorem length_of_ipv6? (h : ipv6? cs = some ns) : ns.length = 8 ∧ ∀ n ∈ ns, n < 65536 := by
  have hstart : ∃ rest, ipv6Start? cs = some (ns, rest) := by
    rw [ipv6?] at h
    split at h
    · next hstart =>
      cases h
      exact ⟨_, hstart⟩
    · contradiction
  obtain ⟨rest, hstart⟩ := hstart
  obtain ⟨hmost, hfront⟩ := groups_bounded 8 cs
  unfold ipv6Start? at hstart
  dsimp only at hstart
  split at hstart
  · next hall =>
    cases hstart
    exact ⟨hall, hfront⟩
  · next hshort =>
    split at hstart
    · contradiction
    · split at hstart
      · next more hrest =>
        cases hstart
        obtain ⟨hroom, hback⟩ := groups_bounded (7 - (groups 8 cs).1.length) more
        refine ⟨by simp; omega, fun n hn => ?_⟩
        obtain hn | hn := List.mem_append.mp hn
        · obtain hn | hn := List.mem_append.mp hn
          · exact hfront n hn
          · rw [(List.mem_replicate.mp hn).2]
            decide
        · exact hback n hn
      · contradiction

/-! ## IPv4 -/

/-- The decimal bytes of an address. -/
def bytesOf (n : Nat) : List Nat :=
  [n / 16777216 % 256, n / 65536 % 256, n / 256 % 256, n % 256]

/-- An address of the older kind is written as four bytes with points between them. -/
theorem ipv4Text_eq (n : Nat) :
    (ipv4Text n).toList = ['.'].intercalate ((bytesOf n).map (Nat.toDigits 10)) := by
  simp [ipv4Text, bytesOf, List.intercalate_cons_cons]

/-- The text of an address is made of digits and points. -/
theorem mem_ipv4Text (h : c ∈ (ipv4Text n).toList) : isAsciiDigit c = true ∨ c = '.' := by
  rw [ipv4Text_eq] at h
  simp only [bytesOf, List.map_cons, List.map_nil, List.intercalate_cons_cons,
    List.intercalate_singleton, List.mem_append, List.mem_singleton] at h
  obtain ((h | h) | ((h | h) | ((h | h) | h))) := h
  all_goals first | exact .inr h | exact .inl (isAsciiDigit_of_mem_toDigits h)

/-- It is split at the points again. -/
theorem parts_ipv4Text (n : Nat) :
    parts (ipv4Text n).toList = (bytesOf n).map (Nat.toDigits 10) := by
  have hsplit : splitOn (· == '.') (ipv4Text n).toList = (bytesOf n).map (Nat.toDigits 10) := by
    rw [ipv4Text_eq]
    refine splitOn_intercalate (by simp [bytesOf]) ?_ (by decide)
    intro piece hpiece c hc
    obtain ⟨m, -, rfl⟩ := List.mem_map.mp hpiece
    have hdigit := isAsciiDigit_of_mem_toDigits hc
    rw [beq_eq_false_iff_ne]
    rintro rfl
    exact absurd hdigit (by decide)
  have hlast : ((bytesOf n).map (Nat.toDigits 10)).getLast? ≠ some [] := by
    simp [bytesOf]
  rw [parts, hsplit]
  simp only [if_neg hlast]

theorem part?_toDigits : ∀ n < 256, part? (Nat.toDigits 10 n) = some n := by
  decide +kernel

/-- The parts of an address are bytes. -/
theorem lt_of_mem_bytesOf {m : Nat} (h : m ∈ bytesOf n) : m < 256 := by
  simp only [bytesOf, List.mem_cons, List.not_mem_nil, or_false] at h
  omega

/-- The text of an address ends in a number. -/
theorem endsInNumber_ipv4Text (n : Nat) : endsInNumber (ipv4Text n).toList = true := by
  rw [endsInNumber, parts_ipv4Text]
  have hpart := part?_toDigits (n % 256) (Nat.mod_lt _ (by decide))
  simp [bytesOf, hpart]

/-- The text of an address is read as that address. -/
theorem ipv4?_ipv4Text (h : n < 4294967296) : ipv4? (ipv4Text n).toList = some n := by
  have hparts : (parts (ipv4Text n).toList).mapM part? = some (bytesOf n) := by
    have hpart : ∀ m ∈ bytesOf n, part? (Nat.toDigits 10 m) = some m := fun m hm =>
      part?_toDigits m (lt_of_mem_bytesOf hm)
    rw [parts_ipv4Text]
    simp only [bytesOf, List.mem_cons, List.not_mem_nil, or_false, forall_eq_or_imp, forall_eq] at hpart
    simp [bytesOf, hpart]
  have hfront : (bytesOf n).dropLast.all (· ≤ 255) = true := by
    simp [bytesOf]
    omega
  have hlast : n % 256 < Nat.pow 256 (4 - (bytesOf n).dropLast.length) := Nat.mod_lt _ (by decide)
  have hsum : (bytesOf n).dropLast.zipIdx.foldl
      (fun sum p => sum + p.1 * Nat.pow 256 (3 - p.2)) (n % 256) = n := by
    simp [bytesOf]
    omega
  rw [ipv4?, hparts]
  have hlast? : (bytesOf n).getLast? = some (n % 256) := rfl
  simp only [Option.bind_eq_bind, Option.bind_some, hlast?, hfront, hlast]
  exact congrArg some hsum

/-- Bytes in front of a number fill the places above it at most. -/
theorem foldl_bytes_le (front : List Nat) (i last : Nat) (hlength : i + front.length ≤ 4)
    (hfront : ∀ n ∈ front, n ≤ 255) :
    (front.zipIdx i).foldl (fun sum p => sum + p.1 * Nat.pow 256 (3 - p.2)) last +
      256 ^ (4 - (i + front.length)) ≤ last + 256 ^ (4 - i) := by
  induction front generalizing i last with
  | nil => simp
  | cons n front ih =>
    have hn := hfront n List.mem_cons_self
    rw [List.length_cons] at hlength
    have hplace : 4 - i = 3 - i + 1 := by omega
    have hrest : i + (n :: front).length = i + 1 + front.length := by
      rw [List.length_cons]
      omega
    have hnext := ih (i + 1) (last + n * Nat.pow 256 (3 - i)) (by omega)
      fun m hm => hfront m (List.mem_cons_of_mem n hm)
    have hlater : 4 - (i + 1) = 3 - i := by omega
    rw [hlater] at hnext
    rw [List.zipIdx_cons, List.foldl_cons, hrest, hplace, Nat.pow_succ]
    have hfull : (n + 1) * 256 ^ (3 - i) ≤ 256 * 256 ^ (3 - i) := Nat.mul_le_mul_right _ (by omega)
    calc _ ≤ last + n * 256 ^ (3 - i) + 256 ^ (3 - i) := hnext
      _ = last + (n + 1) * 256 ^ (3 - i) := by rw [Nat.add_mul, Nat.one_mul, Nat.add_assoc]
      _ ≤ last + 256 * 256 ^ (3 - i) := Nat.add_le_add_left hfull last
      _ = last + 256 ^ (3 - i) * 256 := by rw [Nat.mul_comm]

/-- An address is a number of four bytes. -/
theorem ipv4?_lt (h : ipv4? cs = some n) : n < 4294967296 := by
  have hpow : 256 ^ 4 = 4294967296 := by decide
  rw [ipv4?] at h
  obtain ⟨numbers, -, h⟩ := Option.bind_eq_some_iff.mp h
  obtain ⟨last, hlast, h⟩ := Option.bind_eq_some_iff.mp h
  obtain ⟨front, rfl⟩ := List.getLast?_eq_some_iff.mp hlast
  dsimp only at h
  split at h
  · next hfits =>
    obtain ⟨hlength, hfront, hlast⟩ := hfits
    rw [List.dropLast_concat] at h hfront hlast
    rw [List.length_append, List.length_singleton] at hlength
    have hbytes := foldl_bytes_le front 0 last (by omega)
      (by simpa [List.all_eq_true] using hfront)
    have hplace : last < 256 ^ (4 - (0 + front.length)) := by
      rw [Nat.zero_add]
      exact hlast
    have hsum := Nat.lt_of_le_of_lt hbytes (Nat.add_lt_add_right hplace _)
    rw [Nat.sub_zero, hpow, Nat.add_comm (256 ^ _) 4294967296] at hsum
    rw [← Option.some.inj h]
    exact Nat.lt_of_add_lt_add_right hsum
  · contradiction

end PullCache.Address
