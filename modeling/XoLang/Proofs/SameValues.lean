import Mathlib.Data.List.Nodup
import Mathlib.Data.List.Perm.Subperm
import XoLang.Settings

/-!
# One value in two documents

Collections are named by their indexes, so one value may be kept under different names. Two values
are the same if they are alike to every depth: equal where they are no collections, and otherwise of
one kind with parts that are alike. A collection that holds itself has to come back in the one value
where it comes back in the other. The same values have the same text, truth and words.
-/

namespace XoLang

/-- Collections of one kind whose parts are related one by one. -/
inductive Collection.Rel (R : Datum → Datum → Prop) : Collection → Collection → Prop
  | list {items items' : List Datum} (each : List.Forall₂ R items items') :
      Rel R (.list items) (.list items')
  | map {entries entries' : List (Datum × Datum)}
      (each : List.Forall₂ (fun e e' => R e.1 e'.1 ∧ R e.2 e'.2) entries entries') :
      Rel R (.map entries) (.map entries')
  | set {members members' : List Datum} (each : List.Forall₂ R members members') :
      Rel R (.set members) (.set members')
  | pair {first second first' second' : Datum} (one : R first first') (other : R second second') :
      Rel R (.pair first second) (.pair first' second')

namespace Document

/-- Values that are alike down to a depth; `path` holds the collections on the way to them. -/
def AlikeTo (a b : Document) : Nat → List (Nat × Nat) → Datum → Datum → Prop
  | 0, _, _, _ => True
  | depth + 1, path, .collection i, .collection j =>
    (∀ pair ∈ path, pair.1 = i ↔ pair.2 = j) ∧
      Option.Rel (Collection.Rel (AlikeTo a b depth ((i, j) :: path)))
        a.collections[i]? b.collections[j]?
  | _ + 1, _, .nan _, .nan _ => True
  | _ + 1, _, v, w => v = w

/-- Values that are alike to every depth below the collections on `path`. -/
def AlikeBelow (a b : Document) (path : List (Nat × Nat)) (v w : Datum) : Prop :=
  ∀ depth, AlikeTo a b depth path v w

/-- The same value in two documents. -/
def Same (a b : Document) (v w : Datum) : Prop := AlikeBelow a b [] v w

end Document

namespace Collection

variable {R S : Datum → Datum → Prop} {c d : Collection}

theorem Rel.imp (h : c.Rel R d) (each : ∀ v w, R v w → S v w) : c.Rel S d := by
  cases h with
  | list items => exact .list (items.imp each)
  | map entries => exact .map (entries.imp fun _ _ e => e.imp (each _ _) (each _ _))
  | set members => exact .set (members.imp each)
  | pair one other => exact .pair (each _ _ one) (each _ _ other)

theorem Rel.dots_eq (h : c.Rel R d) : c.dots = d.dots := by
  cases h <;> rfl

theorem Rel.isEmpty_eq (h : c.Rel R d) : c.isEmpty = d.isEmpty := by
  cases h with
  | list each | map each | set each => cases each <;> rfl
  | pair => rfl

/-- Lists that are related give one result if each of their members does. -/
theorem mapM_of_forall₂ {α β γ : Type} {R : α → β → Prop} {f : α → Except ValueFault γ}
    {g : β → Except ValueFault γ} {xs : List α} {ys : List β} (each : List.Forall₂ R xs ys)
    (same : ∀ x y, R x y → f x = g y) : xs.mapM f = ys.mapM g := by
  induction each with
  | nil => rfl
  | cons first _ ih => rw [List.mapM_cons, List.mapM_cons, same _ _ first, ih]

theorem Rel.shownWith_eq {f g : Datum → Except ValueFault String} (h : c.Rel R d)
    (same : ∀ v w, R v w → f v = g w) : c.shownWith f = d.shownWith g := by
  cases h with
  | list each => simp only [shownWith, mapM_of_forall₂ each same]
  | map each =>
    simp only [shownWith]
    congr 1
    exact mapM_of_forall₂ each fun _ _ related => by rw [same _ _ related.1, same _ _ related.2]
  | set each =>
    cases each with
    | nil => rfl
    | cons first rest => simp only [shownWith, mapM_of_forall₂ (.cons first rest) same]
  | pair one other => simp only [shownWith, same _ _ one, same _ _ other]

end Collection

namespace Document

variable {a b : Document} {path : List (Nat × Nat)} {v w : Datum}

/-! What is alike to every depth. -/

theorem forall₂_of_forall {α β : Type} {R : Nat → α → β → Prop} {xs : List α} {ys : List β}
    (each : ∀ n, List.Forall₂ (R n) xs ys) : List.Forall₂ (fun x y => ∀ n, R n x y) xs ys := by
  rw [List.forall₂_iff_zip]
  refine ⟨(each 0).length_eq, fun mem n => ?_⟩
  exact (List.forall₂_iff_zip.mp (each n)).2 mem

theorem rel_of_forall {R : Nat → Datum → Datum → Prop} {c d : Collection}
    (each : ∀ n, c.Rel (R n) d) : c.Rel (fun v w => ∀ n, R n v w) d := by
  cases each 0 with
  | list =>
    exact .list (forall₂_of_forall fun n => by cases each n; assumption)
  | map =>
    have both := forall₂_of_forall fun n => by cases each n with | map inside => exact inside
    exact .map (both.imp fun _ _ inside => ⟨fun n => (inside n).1, fun n => (inside n).2⟩)
  | set =>
    exact .set (forall₂_of_forall fun n => by cases each n; assumption)
  | pair =>
    exact .pair (fun n => by cases each n; assumption) (fun n => by cases each n; assumption)

/-- Values that are alike are collections of one kind with parts that are alike, or are equal but
for the origin of what is no number. -/
inductive Step (a b : Document) (path : List (Nat × Nat)) : Datum → Datum → Prop
  | missing {i j : Nat} (returns : ∀ pair ∈ path, pair.1 = i ↔ pair.2 = j)
      (missing : a.collections[i]? = none) (missing' : b.collections[j]? = none) :
      Step a b path (.collection i) (.collection j)
  | collection {i j : Nat} {c d : Collection} (returns : ∀ pair ∈ path, pair.1 = i ↔ pair.2 = j)
      (found : a.collections[i]? = some c) (found' : b.collections[j]? = some d)
      (parts : c.Rel (AlikeBelow a b ((i, j) :: path)) d) :
      Step a b path (.collection i) (.collection j)
  | nan (m n : Nat) : Step a b path (.nan m) (.nan n)
  | plain {v : Datum} (single : v.isKey = true) : Step a b path v v

theorem AlikeBelow.step_collection {i j : Nat}
    (h : AlikeBelow a b path (.collection i) (.collection j)) :
    Step a b path (.collection i) (.collection j) := by
  have returns := (h 1).1
  have each : ∀ n, Option.Rel (Collection.Rel (AlikeTo a b n ((i, j) :: path)))
      a.collections[i]? b.collections[j]? := fun n => (h (n + 1)).2
  cases found : a.collections[i]? with
  | none =>
    cases found' : b.collections[j]? with
    | none => exact .missing returns found found'
    | some d =>
      rw [found, found'] at each
      cases each 0
  | some c =>
    cases found' : b.collections[j]? with
    | none =>
      rw [found, found'] at each
      cases each 0
    | some d =>
      rw [found, found'] at each
      refine .collection returns found found' (rel_of_forall fun n => ?_)
      cases each n with
      | some parts => exact parts

theorem AlikeBelow.step (h : AlikeBelow a b path v w) : Step a b path v w := by
  have top : AlikeTo a b 1 path v w := h 1
  cases v with
  | collection i =>
    cases w with
    | collection j => exact h.step_collection
    | _ => cases top
  | nan m =>
    cases w with
    | nan n => exact .nan m n
    | _ => cases top
  | _ =>
    cases w <;> cases top
    exact .plain rfl

theorem rel_imp {α : Type} {R S : α → α → Prop} {x y : Option α} (h : Option.Rel R x y)
    (each : ∀ c d, R c d → S c d) : Option.Rel S x y := by
  cases h with
  | some related => exact .some (each _ _ related)
  | none => exact .none

theorem alikeTo_of_subset {depth : Nat} {fewer : List (Nat × Nat)} (inside : fewer ⊆ path)
    (h : AlikeTo a b depth path v w) : AlikeTo a b depth fewer v w := by
  induction depth generalizing path fewer v w with
  | zero => trivial
  | succ depth ih =>
    cases v with
    | collection i =>
      cases w with
      | collection j =>
        obtain ⟨returns, parts⟩ := h
        refine ⟨fun pair mem => returns pair (inside mem), ?_⟩
        have below : (i, j) :: fewer ⊆ (i, j) :: path := List.cons_subset_cons (i, j) inside
        exact rel_imp parts fun _ _ parts => parts.imp fun _ _ => ih below
      | _ => exact h
    | nan m =>
      cases w with
      | nan n => trivial
      | _ => exact h
    | _ => cases w <;> exact h

/-- Parts of what is alike are so by themselves. -/
theorem AlikeBelow.same (h : AlikeBelow a b path v w) : Same a b v w :=
  fun depth => alikeTo_of_subset (List.nil_subset path) (h depth)

/-! What the same values have in common. -/

/-- A path of collections of a document, with fuel for all those that are not on it. -/
structure Room (document : Document) (fuel : Nat) (path : List Nat) : Prop where
  nodup : path.Nodup
  inside : ∀ i ∈ path, i < document.collections.size
  enough : document.collections.size < fuel + path.length

theorem Room.start (document : Document) : Room document (document.collections.size + 1) [] :=
  ⟨List.nodup_nil, by simp, by simp⟩

theorem Room.pos {document : Document} {fuel : Nat} {path : List Nat}
    (room : Room document fuel path) : fuel ≠ 0 := by
  have within : path ⊆ List.range document.collections.size :=
    fun i mem => List.mem_range.mpr (room.inside i mem)
  have fits := (List.subperm_of_subset room.nodup within).length_le
  rw [List.length_range] at fits
  have := room.enough
  omega

theorem Room.enter {document : Document} {fuel i : Nat} {path : List Nat} {c : Collection}
    (room : Room document (fuel + 1) path) (found : document.collections[i]? = some c)
    (fresh : i ∉ path) : Room document fuel (i :: path) where
  nodup := List.nodup_cons.mpr ⟨fresh, room.nodup⟩
  inside := List.forall_mem_cons.mpr ⟨(Array.getElem?_eq_some_iff.mp found).1, room.inside⟩
  enough := by
    have := room.enough
    rw [List.length_cons]
    omega

/-- Values that are alike below some collections are shown alike there. -/
theorem shownInside_of_alikeBelow {fuel fuel' : Nat} (h : AlikeBelow a b path v w)
    (room : Room a fuel (path.map Prod.fst)) (room' : Room b fuel' (path.map Prod.snd)) :
    a.shownInside fuel (path.map Prod.fst) v = b.shownInside fuel' (path.map Prod.snd) w := by
  induction fuel generalizing fuel' path v w with
  | zero => exact absurd rfl room.pos
  | succ fuel ih =>
    obtain ⟨fuel', rfl⟩ := Nat.exists_eq_succ_of_ne_zero room'.pos
    cases h.step with
    | missing _ missing missing' => simp only [shownInside, missing, missing']
    | @collection i j c d returns found found' parts =>
      have back : i ∈ path.map Prod.fst ↔ j ∈ path.map Prod.snd := by
        simp only [List.mem_map]
        constructor
        · rintro ⟨pair, mem, same⟩
          exact ⟨pair, mem, (returns pair mem).mp same⟩
        · rintro ⟨pair, mem, same⟩
          exact ⟨pair, mem, (returns pair mem).mpr same⟩
      simp only [shownInside, found, found', List.contains_iff_mem, back]
      split_ifs with passed
      · rw [parts.dots_eq]
      · exact parts.shownWith_eq fun v w alike =>
          ih alike (room.enter found fun mem => passed (back.mp mem)) (room'.enter found' passed)
    | nan => rfl
    | @plain v single => cases v <;> first | rfl | cases single

theorem Same.shown_eq (h : Same a b v w) : a.shown v = b.shown w :=
  shownInside_of_alikeBelow h (Room.start a) (Room.start b)

theorem Same.text_eq (h : Same a b v w) : a.text v = b.text w := by
  have shown := h.shown_eq
  cases h.step with
  | missing | collection | nan => simp only [text, shown]
  | @plain v single => cases v <;> simp only [text, shown]

theorem Same.truth_eq (h : Same a b v w) : a.truth v = b.truth w := by
  cases h.step with
  | missing _ missing missing' => simp only [truth, missing, missing']
  | collection _ found found' parts =>
    simp only [truth, found, found', Option.any_some, parts.isEmpty_eq]
  | nan => rfl
  | @plain v single => cases v <;> first | rfl | cases single

end Document

theorem Settings.formatterWords_of_same {a b : Document} {v w : Datum} (h : a.Same b v w) :
    formatterWords a v = formatterWords b w := by
  cases h.step with
  | missing _ missing missing' =>
    simp only [formatterWords, Document.collection?, missing, missing']
  | collection _ found found' parts =>
    simp only [formatterWords, Document.collection?, found, found']
    cases parts with
    | list each =>
      have texts := Collection.mapM_of_forall₂ each fun _ _ alike => alike.same.text_eq
      simp only [texts]
    | map | set | pair => rfl
  | nan => rfl
  | @plain v single => cases v <;> first | rfl | cases single

end XoLang
