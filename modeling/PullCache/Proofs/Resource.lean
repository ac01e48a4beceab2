import Mathlib.Data.List.Sort
import Mathlib.Data.Multiset.Defs
import Mathlib.Data.Prod.Lex
import Mathlib.Data.String.Basic
import PullCache.Proofs.Text.Quoted
import PullCache.Resource
/-!
# Proofs.Resource

When two resources have the same key: exactly if they have the same path and the same parameters, in
whatever order the parameters were added (`key_eq_key_iff`).

The path stands in a key as it is, so it can hold a question mark and all that looks like the
parameters of another resource. But a question mark among parameters is always between quotes. Whoever
takes the end of a key from there on for the parameters has the inside and the outside of all quotes
the wrong way round, and would come to the closing bracket between quotes (`path_of_keyText`).
-/

namespace PullCache

/-! ## Parameters in order -/

namespace Param

/-- Parameters are ordered by name, then by value. -/
theorem le_iff {p q : Param} : p.le q = true ↔ toLex p ≤ toLex q := by
  simp only [Param.le, Bool.or_eq_true, Bool.and_eq_true, beq_iff_eq, decide_eq_true_eq,
    Prod.Lex.toLex_le_toLex]

/-- A parameter is inserted before the first one that is not smaller. -/
theorem insert_eq (p : Param) (params : List Param) :
    p.insert params = params.orderedInsert (fun a b => toLex a ≤ toLex b) p := by
  induction params with
  | nil => rfl
  | cons q rest ih =>
    rw [Param.insert, List.orderedInsert_cons, ih]
    simp only [le_iff]

/-- Parameters in order. -/
def Sorted (params : List Param) : Prop :=
  params.Pairwise fun a b => toLex a ≤ toLex b

/-- Insertion adds the parameter and loses none. -/
theorem insert_perm (p : Param) (params : List Param) : (p.insert params).Perm (p :: params) := by
  rw [insert_eq]
  exact List.perm_orderedInsert ..

/-- Insertion keeps the parameters sorted. -/
theorem Sorted.insert {params : List Param} (h : Sorted params) (p : Param) :
    Sorted (p.insert params) := by
  have : Std.Total fun a b : Param => toLex a ≤ toLex b := ⟨fun a b => le_total (toLex a) (toLex b)⟩
  have : IsTrans Param fun a b => toLex a ≤ toLex b := ⟨fun _ _ _ => le_trans⟩
  rw [insert_eq]
  exact List.Pairwise.orderedInsert p params h

/-- There is one way to put parameters in order. -/
theorem Sorted.eq_of_perm {params params' : List Param} (h : Sorted params) (h' : Sorted params')
    (hperm : params.Perm params') : params = params' :=
  hperm.eq_of_pairwise (fun _ _ _ _ hab hba => toLex.injective (le_antisymm hab hba)) h h'

end Param

namespace Resource

/-! ## Resources as they are made -/

/-- Resources as clients make them: from a path, and then with one parameter after the other. -/
inductive Built : Resource → Prop where
  | ofPath (category : Category) (path : String) : Built (ofPath category path)
  | withParam {r : Resource} (h : Built r) (name value : String) : Built (r.withParam name value)

/-- However a resource was built, its parameters are sorted. -/
theorem Built.sorted {r : Resource} (h : r.Built) : Param.Sorted r.params := by
  induction h with
  | ofPath category path => exact .nil
  | withParam h name value ih => exact ih.insert (name, value)

/-- Adding parameters is one more way to build a resource. -/
theorem built_withParams {r : Resource} (h : r.Built) (added : List Param) :
    (r.withParams added).Built := by
  induction added generalizing r with
  | nil => exact h
  | cons p rest ih => exact ih (h.withParam p.1 p.2)

theorem path_withParams (r : Resource) (added : List Param) : (r.withParams added).path = r.path := by
  induction added generalizing r with
  | nil => rfl
  | cons p rest ih => exact ih (r.withParam p.1 p.2)

/-- No parameter is lost, and none is made up. -/
theorem params_withParams_perm (r : Resource) (added : List Param) :
    (r.withParams added).params.Perm (added ++ r.params) := by
  induction added generalizing r with
  | nil => exact .refl _
  | cons p rest ih =>
    have hrest : (r.withParams (p :: rest)).params.Perm (rest ++ Param.insert p r.params) :=
      ih (r.withParam p.1 p.2)
    have hfirst := (Param.insert_perm p r.params).append_left rest
    exact (hrest.trans hfirst).trans List.perm_middle

/-- What tells resources apart: the path, and the parameters in no order. -/
def identity (r : Resource) : String × Multiset Param :=
  (r.path, r.params)

/-! ## Reading a key -/

/-- The parameters as a key shows them. -/
def paramText (params : List Param) : List Char :=
  Text.bracketed (params.map quotedParam)

/-- A quoted parameter ends where it ends, whatever follows. -/
theorem quotedParam_append_inj {p q : Param} {x y : List Char}
    (h : quotedParam p ++ x = quotedParam q ++ y) : p = q ∧ x = y := by
  simp only [quotedParam, List.cons_append, List.append_assoc, List.nil_append, List.cons.injEq,
    true_and] at h
  obtain ⟨hname, h⟩ := Text.quoted_append_inj h
  simp only [List.cons.injEq, true_and] at h
  obtain ⟨hvalue, h⟩ := Text.quoted_append_inj h
  exact ⟨Prod.ext (String.toList_inj.mp hname) (String.toList_inj.mp hvalue), (List.cons.inj h).2⟩

/-- Different lists of parameters have different texts. -/
theorem paramText_inj {params params' : List Param} (h : paramText params = paramText params') :
    params = params' :=
  Text.bracketed_inj quotedParam_append_inj (fun p x y hp => by simp [quotedParam] at hp) h

/-- The text of parameters is made of signs and quoted texts. -/
theorem paramText_induction {P : List Char → Prop} (params : List Param)
    (append : ∀ {xs ys}, P xs → P ys → P (xs ++ ys))
    (signs : ∀ cs, (∀ c ∈ cs, c ∈ Text.signs) → P cs) (quoted : ∀ cs, P (Text.quoted cs)) :
    P (paramText params) := by
  have hparam : ∀ p, P (quotedParam p) := fun p => by
    have hname := append (signs ['('] (by simp [Text.signs])) (quoted p.1.toList)
    have hvalue := append (signs [',', ' '] (by simp [Text.signs])) (quoted p.2.toList)
    have hall := append (append hname hvalue) (signs [')'] (by simp [Text.signs]))
    simpa [quotedParam] using hall
  have hrest : ∀ params : List Param, P ((params.map quotedParam).flatMap ([',', ' '] ++ ·)) := by
    intro params
    induction params with
    | nil => exact signs [] (by simp)
    | cons p rest ih => exact append (append (signs [',', ' '] (by simp [Text.signs])) (hparam p)) ih
  cases params with
  | nil => exact signs ['[', ']'] (by simp [Text.signs])
  | cons p rest =>
    have hall := append (append (signs ['['] (by simp [Text.signs])) (append (hparam p) (hrest rest)))
      (signs [']'] (by simp [Text.signs]))
    rw [paramText, Text.bracketed, List.map_cons, Text.intercalate_cons]
    simpa using hall

/-- The text of parameters begins and ends outside of all quotes. -/
theorem scan_outside_paramText (params : List Param) :
    Text.scan .outside (paramText params) = some .outside := by
  refine paramText_induction params (fun hx hy => ?_) (fun cs h => (Text.scan_signs h).1)
    Text.scan_outside_quoted
  rw [Text.scan_append, hx]
  exact hy

/-- A reader who takes the outside of all quotes for the inside never comes to the end of the text of
parameters as someone who is outside. -/
theorem returns_paramText (params : List Param) : Text.Returns .inside (paramText params) :=
  paramText_induction params Text.Returns.append (fun _ h => .inr (Text.scan_signs h).2)
    Text.returns_quoted

/-- A question mark does not stand outside of quotes. -/
theorem scan_question (s : Text.Spot) (cs : List Char) :
    Text.scan s ('?' :: cs) = none ∨ Text.scan s ('?' :: cs) = Text.scan .inside cs := by
  cases s with
  | outside => exact .inl rfl
  | inside | escaped => exact .inr rfl

/-- The text of parameters holds no question mark that is followed by the text of parameters to its
end. -/
theorem paramText_ne (params params' : List Param) (front : List Char) :
    paramText params ≠ front ++ '?' :: paramText params' := by
  intro h
  have hscan := scan_outside_paramText params
  rw [h, Text.scan_append, Option.bind_eq_some_iff] at hscan
  obtain ⟨s, -, hrest⟩ := hscan
  obtain hstop | hgo := scan_question s (paramText params')
  · rw [hstop] at hrest
    contradiction
  · rw [hgo] at hrest
    obtain hwrong | hwrong := returns_paramText params' <;> rw [hwrong] at hrest <;> cases hrest

/-- The path of a key ends at the last question mark that can begin parameters. -/
theorem path_of_keyText {path path' : List Char} {params params' : List Param}
    (h : path ++ '?' :: paramText params = path' ++ '?' :: paramText params') :
    path = path' ∧ params = params' := by
  obtain ⟨between, hpath, hrest⟩ | ⟨between, hpath, hrest⟩ := List.append_eq_append_iff.mp h
  · cases between with
    | nil => exact ⟨by rw [hpath, List.append_nil], paramText_inj (List.cons.inj hrest).2⟩
    | cons c between => exact absurd (List.cons.inj hrest).2 (paramText_ne params params' between)
  · cases between with
    | nil => exact ⟨by rw [hpath, List.append_nil], paramText_inj (List.cons.inj hrest).2.symm⟩
    | cons c between => exact absurd (List.cons.inj hrest).2 (paramText_ne params' params between)

/-! ## Keys -/

/-- Two resources share a key exactly if they agree in path and parameters. -/
theorem key_eq_iff {r r' : Resource} : r.key = r'.key ↔ r.path = r'.path ∧ r.params = r'.params := by
  constructor
  · intro h
    have htext := congrArg (fun k => k.text.toList) h
    simp only [key, String.toList_append, String.toList_ofList, List.append_assoc] at htext
    obtain ⟨hpath, hparams⟩ := path_of_keyText htext
    exact ⟨String.toList_inj.mp hpath, hparams⟩
  · rintro ⟨hpath, hparams⟩
    rw [key, key, hpath, hparams]

/-- A key stands for a path and parameters in no order. -/
theorem Built.key_eq_iff {r r' : Resource} (h : r.Built) (h' : r'.Built) :
    r.key = r'.key ↔ r.identity = r'.identity := by
  rw [Resource.key_eq_iff, identity, identity, Prod.mk.injEq, Multiset.coe_eq_coe]
  exact and_congr_right fun _ => ⟨fun heq => heq ▸ .refl _, h.sorted.eq_of_perm h'.sorted⟩

/-- **Keys.** Two resources, each made from any path and any parameters added to it in any order, have
the same key exactly if their paths are the same, slashes at the front left aside, and the same
parameters were added to them, each as often. -/
theorem key_eq_key_iff (category category' : Category) (path path' : String)
    (added added' : List Param) :
    ((ofPath category path).withParams added).key =
        ((ofPath category' path').withParams added').key ↔
      (ofPath category path).path = (ofPath category' path').path ∧
        (added : Multiset Param) = (added' : Multiset Param) := by
  have hparams : ∀ category path added, ((ofPath category path).withParams added).identity =
      ((ofPath category path).path, (added : Multiset Param)) := by
    intro category path added
    have hperm := params_withParams_perm (ofPath category path) added
    rw [show (ofPath category path).params = [] from rfl, List.append_nil] at hperm
    rw [identity, path_withParams, Multiset.coe_eq_coe.mpr hperm]
  have hbuilt : ∀ category path added, ((ofPath category path).withParams added).Built :=
    fun category path added => built_withParams (.ofPath category path) added
  rw [(hbuilt category path added).key_eq_iff (hbuilt category' path' added'), hparams, hparams,
    Prod.mk.injEq]

end Resource

end PullCache
