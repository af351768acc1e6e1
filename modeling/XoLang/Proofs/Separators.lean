import XoLang.Proofs.Listing

/-!
# Separators

A comma, and a line end between the parentheses of a call, gives no node. So taking away any of them
changes nothing, and neither does one more comma, as long as it does not come into the head of a
declaration or of a call: there the next token is fixed, and a comma is refused.
-/

namespace XoLang

/-- A comma, or a line end between the parentheses of a call. -/
def isSeparator (place : Token × Nat) : Bool := place.1.kind = .comma || isInnerNewline place

/-- Tokens behind `depth` open parentheses, and what is left of them without some separators. -/
inductive Thinned : Nat → List Token → List Token → Prop
  | done {depth : Nat} : Thinned depth [] []
  | keep {depth : Nat} {t : Token} {tokens fewer : List Token}
      (rest : Thinned (t.kind.deepen depth) tokens fewer) :
      Thinned depth (t :: tokens) (t :: fewer)
  | drop {depth : Nat} {t : Token} {tokens fewer : List Token}
      (separator : isSeparator (t, depth) = true)
      (rest : Thinned (t.kind.deepen depth) tokens fewer) : Thinned depth (t :: tokens) fewer

/-- A place in the head of a declaration or of a call: behind the word of a declaration, behind its
name, or between the name of a call and its parenthesis. -/
inductive WithinHead : List Token → List Token → Prop
  | word {front back : List Token} {word : Token}
      (keyword : word.kind = .name ∧ word.text = "let") : WithinHead (front ++ [word]) back
  | name {front back : List Token} {word name : Token}
      (keyword : word.kind = .name ∧ word.text = "let") : WithinHead (front ++ [word, name]) back
  | call {front back : List Token} {name paren : Token} (naming : Naming name)
      (opens : paren.kind = .parenOpen) : WithinHead (front ++ [name]) (paren :: back)

/-- How many parentheses are open behind some tokens. -/
def depthAfter (depth : Nat) (tokens : List Token) : Nat :=
  tokens.foldl (fun depth t => t.kind.deepen depth) depth

theorem depthAfter_cons (depth : Nat) (t : Token) (tokens : List Token) :
    depthAfter depth (t :: tokens) = depthAfter (t.kind.deepen depth) tokens := rfl

theorem depthAfter_append (depth : Nat) (tokens rest : List Token) :
    depthAfter depth (tokens ++ rest) = depthAfter (depthAfter depth tokens) rest :=
  List.foldl_append

/-! Taking separators away. -/

section Thinning

variable {depth : Nat} {t : Token} {tokens rest fewer : List Token}

theorem Thinned.append (h : Thinned depth (tokens ++ rest) fewer) :
    ∃ first second, fewer = first ++ second ∧ Thinned depth tokens first ∧
      Thinned (depthAfter depth tokens) rest second := by
  induction tokens generalizing depth fewer with
  | nil => exact ⟨[], fewer, rfl, .done, h⟩
  | cons t tokens ih =>
    cases h with
    | keep more =>
      obtain ⟨first, second, rfl, thinned, behind⟩ := ih more
      exact ⟨t :: first, second, rfl, .keep thinned, behind⟩
    | drop separator more =>
      obtain ⟨first, second, rfl, thinned, behind⟩ := ih more
      exact ⟨first, second, rfl, .drop separator thinned, behind⟩

theorem Thinned.kept (h : Thinned depth (t :: tokens) fewer)
    (other : isSeparator (t, depth) = false) :
    ∃ more, fewer = t :: more ∧ Thinned (t.kind.deepen depth) tokens more := by
  cases h with
  | keep rest => exact ⟨_, rfl, rest⟩
  | drop separator _ =>
    rw [other] at separator
    cases separator

theorem Thinned.sublist (h : Thinned depth tokens fewer) : fewer.Sublist tokens := by
  induction h with
  | done => exact .slnil
  | keep _ ih => exact ih.cons_cons _
  | drop _ _ ih => exact ih.cons _

/-- Tokens of other kinds than the two stay in any case. -/
theorem Thinned.fixed {kind : TokenKind} (h : Thinned depth (t :: tokens) fewer)
    (isKind : t.kind = kind) (other : kind ≠ .comma ∧ kind ≠ .newline) :
    ∃ more, fewer = t :: more ∧ Thinned (kind.deepen depth) tokens more := by
  subst isKind
  apply h.kept
  simp [isSeparator, isInnerNewline, other]

/-- Outside of all parentheses a line end stays where it is. -/
theorem Thinned.endsLine (h : Thinned 0 tokens fewer) (ends : EndsLine tokens) :
    EndsLine fewer := by
  cases tokens with
  | nil =>
    cases h
    exact ends
  | cons t tokens =>
    have newline : t.kind = .newline := by simpa using ends t tokens rfl
    have outer : isSeparator (t, 0) = false := by simp [isSeparator, isInnerNewline, newline]
    obtain ⟨more, rfl, -⟩ := h.kept outer
    exact stopsAt_cons (by simp [newline]) more

end Thinning

section Derived

variable {context : Context} {tokens fewer : List Token} {nodes : List Tree} {depth : Nat}

theorem Single.deepen_eq {t : Token} {node : Option Tree} (h : Single context t node)
    (depth : Nat) : t.kind.deepen depth = depth := by
  cases h with
  | comma kind | number kind | string kind | boolean kind | comment kind | commentBlock kind
  | newline kind | separator kind =>
    rw [kind]
    rfl

/-- Derived tokens close all parentheses that they open. -/
theorem Items.depthAfter_eq (h : Items context tokens nodes) (depth : Nat) :
    depthAfter depth tokens = depth := by
  induction h generalizing depth with
  | empty => rfl
  | single item _ ih => rw [depthAfter_cons, item.deepen_eq, ih]
  | call naming opens _ closes _ ihInside ih =>
    simp only [depthAfter_cons, depthAfter_append, naming.1, opens, closes]
    rw [ihInside]
    exact ih depth
  | declaration keyword naming binds _ _ _ _ ihInside ih =>
    simp only [depthAfter_cons, depthAfter_append, keyword.1, naming.1, binds]
    rw [ihInside]
    exact ih depth

theorem Single.eq_none {t : Token} {node : Option Tree} (h : Single context t node)
    (inArguments : context = .arguments ↔ 0 < depth)
    (separator : isSeparator (t, depth) = true) : node = none := by
  cases h with
  | comma | separator => rfl
  | number kind | string kind | boolean kind | comment kind | commentBlock kind =>
    simp [isSeparator, isInnerNewline, kind] at separator
  | newline kind =>
    have inside : 0 < depth := by simpa [isSeparator, isInnerNewline, kind] using separator
    cases inArguments.mpr inside

/-- Without some of their separators derived tokens give the same nodes. -/
theorem Items.thinned (h : Items context tokens nodes)
    (inArguments : context = .arguments ↔ 0 < depth) (thinned : Thinned depth tokens fewer) :
    Items context fewer nodes := by
  -- The depth says whether a line end is a separator, and the context whether it gives a node.
  induction h generalizing depth fewer with
  | empty =>
    cases thinned
    exact .empty
  | @single context t node tokens nodes item _ ih =>
    have same := item.deepen_eq depth
    cases thinned with
    | keep rest =>
      rw [same] at rest
      exact .single item (ih inArguments rest)
    | drop separator rest =>
      rw [same] at rest
      rw [item.eq_none inArguments separator]
      exact ih inArguments rest
  | @call context name paren close inner tokens params nodes naming opens inside closes _
      ihInside ih =>
    obtain ⟨_, rfl, behindName⟩ := thinned.fixed naming.1 (by decide)
    obtain ⟨_, rfl, opened⟩ := behindName.fixed opens (by decide)
    obtain ⟨inner', _, rfl, within, unclosed⟩ := opened.append
    rw [inside.depthAfter_eq] at unclosed
    obtain ⟨tokens', rfl, behind⟩ := unclosed.fixed closes (by decide)
    have params := ihInside (by simp [TokenKind.deepen]) within
    exact .call naming opens params closes (ih inArguments behind)
  | @declaration word name equals line tokens body nodes keyword naming binds oneLine ends inside _
      ihInside ih =>
    obtain ⟨_, rfl, behindWord⟩ := thinned.fixed keyword.1 (by decide)
    obtain ⟨_, rfl, behindName⟩ := behindWord.fixed naming.1 (by decide)
    obtain ⟨_, rfl, bound⟩ := behindName.fixed binds (by decide)
    obtain ⟨line', tokens', rfl, within, behind⟩ := bound.append
    rw [inside.depthAfter_eq] at behind
    have outside : depth = 0 := by
      by_contra notZero
      cases inArguments.mpr (Nat.pos_of_ne_zero notZero)
    subst outside
    have oneLine' : ∀ t ∈ line', t.kind ≠ .newline :=
      fun t mem => oneLine t (within.sublist.subset mem)
    have body := ihInside (by simp [TokenKind.deepen]) within
    exact .declaration keyword naming binds oneLine' (behind.endsLine ends) body
      (ih inArguments behind)

end Derived

/-! One more comma. -/

section Insertion

variable {context : Context} {tokens front back : List Token} {nodes : List Tree} {comma : Token}

theorem WithinHead.behind (more : List Token) (h : WithinHead front back) :
    WithinHead (more ++ front) back := by
  cases h with
  | word keyword =>
    rw [← List.append_assoc]
    exact .word keyword
  | name keyword =>
    rw [← List.append_assoc]
    exact .name keyword
  | call naming opens =>
    rw [← List.append_assoc]
    exact .call naming opens

theorem WithinHead.append (h : WithinHead front back) (more : List Token) :
    WithinHead front (back ++ more) := by
  cases h with
  | word keyword => exact .word keyword
  | name keyword => exact .name keyword
  | call naming opens => exact .call naming opens

/-- A place in two parts lies in the first one, its end included, or within the second one. -/
theorem split_append {first second : List Token} (h : first ++ second = front ++ back) :
    (∃ left, first = front ++ left ∧ back = left ++ second) ∨
      ∃ u used, front = first ++ u :: used ∧ second = u :: (used ++ back) := by
  rcases List.append_eq_append_iff.mp h with ⟨used, rfl, rfl⟩ | ⟨left, rfl, rfl⟩
  · cases used with
    | nil => exact Or.inl ⟨[], by simp, rfl⟩
    | cons u used => exact Or.inr ⟨u, used, rfl, rfl⟩
  · exact Or.inl ⟨left, rfl, rfl⟩

theorem Items.behind_comma (h : Items context tokens nodes) (isComma : comma.kind = .comma) :
    Items context (comma :: tokens) nodes := by
  have nothing : Single context comma none := .comma isComma
  simpa using Items.single nothing h

/-- With one more comma derived tokens give the same nodes. -/
theorem Items.insert_comma (h : Items context tokens nodes) (isComma : comma.kind = .comma)
    (split : tokens = front ++ back) (outside : ¬ WithinHead front back) :
    Items context (front ++ comma :: back) nodes := by
  induction h generalizing front back with
  | empty =>
    obtain ⟨rfl, rfl⟩ := List.append_eq_nil_iff.mp split.symm
    exact Items.empty.behind_comma isComma
  | @single context t node tokens nodes item rest ih =>
    cases front with
    | nil =>
      subst split
      exact (Items.single item rest).behind_comma isComma
    | cons u front =>
      obtain ⟨rfl, rfl⟩ := List.cons.inj split
      exact .single item (ih rfl fun within => outside (within.behind [t]))
  | @call context name paren close inner tokens params nodes naming opens inside closes rest
      ihInside ih =>
    match front with
    | [] =>
      subst split
      exact (Items.call naming opens inside closes rest).behind_comma isComma
    | [_] =>
      obtain ⟨rfl, rfl⟩ := List.cons.inj split
      have within : WithinHead ([] ++ [name]) (paren :: (inner ++ close :: tokens)) :=
        .call naming opens
      exact absurd within outside
    | _ :: _ :: front =>
      simp only [List.cons_append, List.cons.injEq] at split
      obtain ⟨rfl, rfl, split⟩ := split
      rcases split_append split with ⟨left, rfl, rfl⟩ | ⟨u, used, rfl, later⟩
      · -- The comma comes between the parentheses.
        have params := ihInside rfl fun within =>
          outside ((within.append (close :: tokens)).behind [name, paren])
        simpa using Items.call naming opens params closes rest
      · obtain ⟨rfl, rfl⟩ := List.cons.inj later
        have more := ih rfl fun within => outside (by
          simpa using within.behind (name :: paren :: (inner ++ [close])))
        simpa using Items.call naming opens inside closes more
  | @declaration word name equals line tokens body nodes keyword naming binds oneLine ends inside
      rest ihInside ih =>
    match front with
    | [] =>
      subst split
      exact (Items.declaration keyword naming binds oneLine ends inside rest).behind_comma isComma
    | [_] =>
      obtain ⟨rfl, rfl⟩ := List.cons.inj split
      have within : WithinHead ([] ++ [word]) (name :: equals :: (line ++ tokens)) := .word keyword
      exact absurd within outside
    | [_, _] =>
      simp only [List.cons_append, List.nil_append, List.cons.injEq] at split
      obtain ⟨rfl, rfl, rfl⟩ := split
      have within : WithinHead ([] ++ [word, name]) (equals :: (line ++ tokens)) := .name keyword
      exact absurd within outside
    | _ :: _ :: _ :: front =>
      simp only [List.cons_append, List.cons.injEq] at split
      obtain ⟨rfl, rfl, rfl, split⟩ := split
      rcases split_append split with ⟨left, rfl, rfl⟩ | ⟨u, used, rfl, rfl⟩
      · -- The comma comes into the line of the declaration.
        have body := ihInside rfl fun within =>
          outside ((within.append tokens).behind [word, name, equals])
        have oneLine' : ∀ t ∈ front ++ comma :: left, t.kind ≠ .newline := by
          intro t mem
          rcases List.mem_append.mp mem with early | late
          · exact oneLine t (List.mem_append_left left early)
          rcases List.mem_cons.mp late with rfl | late
          · simp [isComma]
          · exact oneLine t (List.mem_append_right front late)
        simpa using Items.declaration keyword naming binds oneLine' ends body rest
      · have split' : u :: (used ++ back) = (u :: used) ++ back := rfl
        have more := ih split' fun within => outside (by
          simpa using within.behind (word :: name :: equals :: line))
        have newline : u.kind = .newline := by simpa using ends u (used ++ back) rfl
        have ends' : EndsLine (u :: used ++ comma :: back) :=
          stopsAt_cons (by simp [newline]) (used ++ comma :: back)
        simpa using Items.declaration keyword naming binds oneLine ends' inside more

end Insertion

/-! Commas that are refused. -/

section Refusal

variable {context : Context} {t u comma : Token} {tokens rest front back : List Token}
  {nodes : List Tree}

/-- What stands next to the word of a declaration is a name, and what stands next to a name is a
parenthesis or the sign of a declaration. -/
structure Continues (t u : Token) : Prop where
  word : t.kind = .name ∧ t.text = "let" → Naming u
  name : Naming t → u.kind = .parenOpen ∨ u.kind = .equals

theorem Single.not_naming {node : Option Tree} (h : Single context t node) : ¬ Naming t := by
  rintro ⟨isName, free⟩
  cases h with
  | boolean _ word =>
    apply free
    rcases word with text | text <;> simp [reservedWords, text]
  | comma kind | number kind | string kind | comment kind | commentBlock kind | newline kind
  | separator kind => simp [kind] at isName

theorem continues_of_kind (other : t.kind ≠ .name) : Continues t u :=
  ⟨fun keyword => absurd keyword.1 other, fun naming => absurd naming.1 other⟩

theorem Naming.continues (naming : Naming t) (h : u.kind = .parenOpen ∨ u.kind = .equals) :
    Continues t u :=
  ⟨fun keyword => absurd keyword naming.not_keyword, fun _ => h⟩

theorem Single.continues {node : Option Tree} (h : Single context t node) : Continues t u :=
  ⟨fun keyword => absurd keyword h.not_keyword, fun naming => absurd naming h.not_naming⟩

/-- Derived tokens continue each other. The last of them asks for nothing behind it. -/
theorem Items.continues (h : Items context tokens nodes) (behind : rest.IsChain Continues) :
    (tokens ++ rest).IsChain Continues := by
  induction h generalizing rest with
  | empty => exact behind
  | single item _ ih =>
    exact List.isChain_cons.mpr ⟨fun _ _ => item.continues, ih behind⟩
  | @call context name paren close inner tokens params nodes naming opens _ closes _ ihInside ih =>
    have closed : (close :: (tokens ++ rest)).IsChain Continues :=
      List.isChain_cons.mpr ⟨fun _ _ => continues_of_kind (by simp [closes]), ih behind⟩
    have opened : (paren :: (inner ++ close :: (tokens ++ rest))).IsChain Continues :=
      List.isChain_cons.mpr ⟨fun _ _ => continues_of_kind (by simp [opens]), ihInside closed⟩
    simpa using List.IsChain.cons_cons (naming.continues (Or.inl opens)) opened
  | @declaration word name equals line tokens body nodes keyword naming binds _ _ _ _ ihInside ih =>
    have bound : (equals :: (line ++ (tokens ++ rest))).IsChain Continues :=
      List.isChain_cons.mpr
        ⟨fun _ _ => continues_of_kind (by simp [binds]), ihInside (ih behind)⟩
    have named := List.IsChain.cons_cons (naming.continues (Or.inr binds)) bound
    have first : Continues word name :=
      ⟨fun _ => naming, fun other => absurd keyword other.not_keyword⟩
    simpa using List.IsChain.cons_cons first named

/-- In a head the next token is fixed. -/
theorem WithinHead.not_continues (h : WithinHead front back) (isComma : comma.kind = .comma) :
    ¬ (front ++ comma :: back).IsChain Continues := by
  intro chain
  cases h with
  | @word front back word keyword =>
    have next : Continues word comma :=
      (List.isChain_append.mp chain).2.2 word (by simp) comma (by simp)
    have kind := (next.word keyword).1
    simp [isComma] at kind
  | @name front back word name keyword =>
    have first : Continues word name := by
      have inner := (List.isChain_append.mp (List.isChain_append.mp chain).1).2.1
      exact (List.isChain_cons_cons.mp inner).1
    have next : Continues name comma :=
      (List.isChain_append.mp chain).2.2 name (by simp) comma (by simp)
    have kind := next.name (first.word keyword)
    simp [isComma] at kind
  | @call front back name paren naming _ =>
    have next : Continues name comma :=
      (List.isChain_append.mp chain).2.2 name (by simp) comma (by simp)
    have kind := next.name naming
    simp [isComma] at kind

theorem Items.not_withinHead (h : Items context (front ++ comma :: back) nodes)
    (isComma : comma.kind = .comma) : ¬ WithinHead front back := by
  intro within
  have chain : (front ++ comma :: back ++ []).IsChain Continues := h.continues .nil
  rw [List.append_nil] at chain
  exact within.not_continues isComma chain

end Refusal

/-- Separators are inert: tokens without some of them, and tokens with one more comma, give the same
tree, where they stand included. Only in the head of a declaration or of a call a comma is
refused. -/
theorem parseTokens_ignores_separators (file : String) (tokens : List Token) (tree : Tree)
    (parsed : parseTokens file tokens = .ok tree) :
    (∀ fewer, Thinned 0 tokens fewer → parseTokens file fewer = .ok tree) ∧
    ∀ front back comma, tokens = front ++ back → comma.kind = .comma →
      (parseTokens file (front ++ comma :: back) = .ok tree ↔ ¬ WithinHead front back) := by
  obtain ⟨body, rfl, derived⟩ := parseTokens_eq_ok_iff.mp parsed
  constructor
  · intro fewer thinned
    exact parseTokens_eq_ok_iff.mpr ⟨body, rfl, derived.thinned (by simp) thinned⟩
  · intro front back comma split isComma
    constructor
    · intro accepted
      obtain ⟨_, -, more⟩ := parseTokens_eq_ok_iff.mp accepted
      exact more.not_withinHead isComma
    · intro outside
      have more := derived.insert_comma isComma split outside
      exact parseTokens_eq_ok_iff.mpr ⟨body, rfl, more⟩

/-- The call of `callTokens` on one line, the comma at its end and the comma behind the word of the
declaration. -/
theorem separators_of_call_ignored :
    parseTokens "a.xo" callTokens = .ok callTree ∧
    Thinned 0 callTokens (callTokens.take 6 ++ callTokens.drop 7) ∧
    parseTokens "a.xo" (callTokens.take 6 ++ callTokens.drop 7) = .ok callTree ∧
    parseTokens "a.xo" (callTokens ++ [⟨.comma, ",", ⟨3, 6, "a.xo"⟩⟩]) = .ok callTree ∧
    parseTokens "a.xo" (callTokens.take 1 ++ ⟨.comma, ",", ⟨1, 4, "a.xo"⟩⟩ :: callTokens.drop 1) ≠
      .ok callTree := by
  have parsed : parseTokens "a.xo" callTokens = .ok callTree := by cbv
  have thinned : Thinned 0 callTokens (callTokens.take 6 ++ callTokens.drop 7) :=
    .keep (.keep (.keep (.keep (.keep (.keep (.drop (by decide) (.keep (.keep .done))))))))
  obtain ⟨fewer, more⟩ := parseTokens_ignores_separators "a.xo" callTokens callTree parsed
  have outside : ¬ WithinHead callTokens [] := by
    intro within
    generalize same : callTokens = front at within
    have reversed := congrArg List.reverse same
    cases within with
    | word keyword =>
      obtain ⟨rfl, -⟩ := List.cons.inj (reversed.trans List.reverse_append)
      simp at keyword
    | name keyword =>
      obtain ⟨-, behind⟩ := List.cons.inj (reversed.trans List.reverse_append)
      obtain ⟨rfl, -⟩ := List.cons.inj behind
      simp at keyword
  have within : WithinHead (callTokens.take 1) (callTokens.drop 1) :=
    @WithinHead.word [] _ _ ⟨rfl, rfl⟩
  refine ⟨parsed, thinned, fewer _ thinned, ?_, ?_⟩
  · exact (more callTokens [] ⟨.comma, ",", ⟨3, 6, "a.xo"⟩⟩ (by simp) rfl).mpr outside
  · intro accepted
    have split : callTokens = callTokens.take 1 ++ callTokens.drop 1 := rfl
    exact (more _ _ ⟨.comma, ",", ⟨1, 4, "a.xo"⟩⟩ split rfl).mp accepted within

end XoLang
