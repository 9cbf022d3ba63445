import SqlScribe.Token
/-! # Token trees

Tokens stand in parentheses, in brackets or between `CASE` and `END`. Read with their brackets they
form trees, and blanks drop out.

* `Tokens.forest?`: the trees of tokens whose brackets fit.
* `Tokens.Forms`: tokens that add some trees wherever they stand, with one law for each way in which
  tokens are put together.
* `Tokens.Shows`: tokens whose brackets fit and which show only certain tokens outside them;
  `Tokens.Nests` where it does not matter which.
* `Tokens.Bears`: such tokens of which one outside the brackets is of a certain kind. -/

namespace SqlScribe

/-- A pair of brackets. -/
inductive Bracket where
  /-- Parentheses. -/
  | round
  /-- Square brackets. -/
  | square
  /-- The keywords around a choice. -/
  | choice
deriving Repr, DecidableEq

/-- The part that a token plays for brackets. -/
inductive TokenRole where
  /-- A blank. -/
  | blank
  /-- An opening bracket. -/
  | opening (b : Bracket)
  /-- A closing bracket. -/
  | closing (b : Bracket)
  /-- Neither. -/
  | plain
deriving Repr, DecidableEq

/-- The part that a token plays for brackets. -/
def Token.role : Token → TokenRole
  | .space => .blank
  | .mark .openParen => .opening .round
  | .mark .closeParen => .closing .round
  | .mark .openBracket => .opening .square
  | .mark .closeBracket => .closing .square
  | .word .CASE => .opening .choice
  | .word .END => .closing .choice
  | _ => .plain

/-- A token, or trees between brackets. -/
inductive TokenTree where
  /-- A token that is neither a blank nor a bracket. -/
  | token (t : Token)
  /-- Trees between brackets. -/
  | group (b : Bracket) (inner : List TokenTree)

/-- Token trees side by side. -/
abbrev Forest := List TokenTree

/-- Brackets that are being read: the trees since the last open bracket, and the open brackets with
the trees before each of them, the innermost first. -/
structure Nest where
  /-- The trees since the last open bracket. -/
  trees : Forest := []
  /-- The open brackets. -/
  outer : List (Bracket × Forest) := []

namespace Nest

/-- Reads a token. A closing bracket has to fit the last open one. -/
def step (n : Nest) (t : Token) : Option Nest :=
  match t.role with
  | .blank => some n
  | .opening b => some { trees := [], outer := (b, n.trees) :: n.outer }
  | .closing b =>
    match n.outer with
    | [] => none
    | (b', before) :: outer =>
      if b = b' then some { trees := before ++ [.group b n.trees], outer } else none
  | .plain => some { n with trees := n.trees ++ [.token t] }

/-- Reads tokens. -/
def run (n : Nest) (ts : Tokens) : Option Nest := ts.foldlM step n

@[simp] theorem run_nil (n : Nest) : n.run [] = some n := rfl

@[simp] theorem run_cons (n : Nest) (t : Token) (ts : Tokens) :
    n.run (t :: ts) = (n.step t).bind (·.run ts) := List.foldlM_cons

@[simp] theorem run_append (n : Nest) (ts us : Tokens) :
    n.run (ts ++ us) = (n.run ts).bind (·.run us) := List.foldlM_append

end Nest

namespace Tokens

/-- The trees of tokens, if their brackets fit. -/
def forest? (ts : Tokens) : Option Forest :=
  match Nest.run {} ts with
  | some ⟨trees, []⟩ => some trees
  | _ => none

/-- Wherever the tokens stand, they add these trees. -/
def Forms (ts : Tokens) (f : Forest) : Prop :=
  ∀ n : Nest, n.run ts = some { n with trees := n.trees ++ f }

/-- Tokens that add some trees wherever they stand have these trees by themselves. -/
theorem Forms.forest?_eq {ts : Tokens} {f : Forest} (h : Forms ts f) : forest? ts = some f := by
  rw [forest?, h {}]
  rfl

namespace Forms

variable {ts us : Tokens} {f g : Forest}

theorem unique (hf : Forms ts f) (hg : Forms ts g) : f = g :=
  Option.some.inj (hf.forest?_eq.symm.trans hg.forest?_eq)

theorem nil : Forms [] [] := fun n => by rw [Nest.run_nil, List.append_nil]

theorem append (hts : Forms ts f) (hus : Forms us g) : Forms (ts ++ us) (f ++ g) := by
  intro n
  rw [Nest.run_append, hts n, Option.bind_some, hus, List.append_assoc]

theorem blank (h : Forms ts f) : Forms (.space :: ts) f := fun n => h n

theorem plain {t : Token} (ht : t.role = .plain) (h : Forms ts f) :
    Forms (t :: ts) (.token t :: f) := by
  intro n
  have hstep : n.step t = some { n with trees := n.trees ++ [.token t] } := by
    rw [Nest.step, ht]
  rw [Nest.run_cons, hstep, Option.bind_some, h, List.append_assoc, List.singleton_append]

/-- Tokens between an opening bracket and the closing one form a group. -/
theorem group {b : Bracket} {opening closing : Token} (ho : opening.role = .opening b)
    (hc : closing.role = .closing b) (h : Forms ts f) :
    Forms (opening :: ts ++ [closing]) [.group b f] := by
  intro n
  -- The opening bracket puts the trees before it aside, and the closing one brings them back.
  have hopen : n.step opening = some { trees := [], outer := (b, n.trees) :: n.outer } := by
    rw [Nest.step, ho]
  have hclose : Nest.step { trees := f, outer := (b, n.trees) :: n.outer } closing
      = some { n with trees := n.trees ++ [.group b f] } := by
    rw [Nest.step, hc]
    exact if_pos rfl
  rw [List.cons_append, Nest.run_cons, hopen, Option.bind_some, Nest.run_append, h,
    Option.bind_some, List.nil_append, Nest.run_cons, hclose, Option.bind_some, Nest.run_nil]

theorem parens (h : Forms ts f) : Forms (Tokens.parens ts) [.group .round f] :=
  h.group rfl rfl

/-- A token between blanks. -/
theorem spaced {t : Token} (ht : t.role = .plain) (hts : Forms ts f) (hus : Forms us g) :
    Forms (ts ++ Tokens.spaced t ++ us) (f ++ .token t :: g) := by
  rw [List.append_assoc]
  exact hts.append (blank (.plain ht hus.blank))

end Forms

/-- The tokens are a pair of brackets and what stands between them. -/
def Encloses (b : Bracket) (ts : Tokens) : Prop := ∃ f, Forms ts [.group b f]

/-- The brackets of the tokens fit, and outside them stand only tokens with a property. -/
def Shows (p : Token → Prop) (ts : Tokens) : Prop :=
  ∃ f, Forms ts f ∧ ∀ t, TokenTree.token t ∈ f → p t

/-- The brackets of the tokens fit. -/
abbrev Nests (ts : Tokens) : Prop := Shows (fun _ => True) ts

/-- Between brackets any tokens may stand. -/
theorem Encloses.shows {p : Token → Prop} {b : Bracket} {ts : Tokens} (h : Encloses b ts) :
    Shows p ts := by
  obtain ⟨f, hf⟩ := h
  exact ⟨[.group b f], hf, by simp⟩

namespace Shows

variable {p q : Token → Prop} {ts us : Tokens}

theorem mono (h : Shows p ts) (hpq : ∀ t, p t → q t) : Shows q ts :=
  h.imp fun _ ⟨hf, hp⟩ => ⟨hf, fun t ht => hpq t (hp t ht)⟩

theorem nests (h : Shows p ts) : Nests ts := h.mono fun _ _ => trivial

theorem nil : Shows p [] := ⟨[], .nil, by simp⟩

theorem append (hts : Shows p ts) (hus : Shows p us) : Shows p (ts ++ us) := by
  obtain ⟨f, hf, hpf⟩ := hts
  obtain ⟨g, hg, hpg⟩ := hus
  refine ⟨f ++ g, hf.append hg, fun t ht => ?_⟩
  rcases List.mem_append.mp ht with ht | ht
  · exact hpf t ht
  · exact hpg t ht

theorem blank (h : Shows p ts) : Shows p (.space :: ts) :=
  h.imp fun _ ⟨hf, hp⟩ => ⟨hf.blank, hp⟩

theorem cons {t : Token} (ht : t.role = .plain) (hp : p t) (h : Shows p ts) :
    Shows p (t :: ts) := by
  obtain ⟨f, hf, hpf⟩ := h
  refine ⟨.token t :: f, hf.plain ht, fun u hu => ?_⟩
  rcases List.mem_cons.mp hu with hu | hu
  · cases hu
    exact hp
  · exact hpf u hu

theorem group {b : Bracket} {opening closing : Token} (ho : opening.role = .opening b)
    (hc : closing.role = .closing b) (h : Nests ts) : Encloses b (opening :: ts ++ [closing]) := by
  obtain ⟨f, hf, -⟩ := h
  exact ⟨f, hf.group ho hc⟩

theorem parens (h : Nests ts) : Shows p (Tokens.parens ts) := (h.group rfl rfl).shows

theorem parensIf (wrap : Bool) (h : Shows p ts) :
    Shows p (Tokens.parensIf wrap ts) := by
  cases wrap with
  | false => exact h
  | true => exact h.nests.parens

theorem spaced {t : Token} (ht : t.role = .plain) (hp : p t) :
    Shows p (Tokens.spaced t) :=
  (nil.blank.cons ht hp).blank

theorem listed {l : List Tokens} (h : ∀ ts ∈ l, Shows p ts) (hp : p (.mark .comma)) :
    Shows p (Tokens.listed l) := by
  induction l with
  | nil => exact nil
  | cons ts rest ih =>
    have hts := h ts (List.mem_cons_self ..)
    have hrest := ih fun us hus => h us (List.mem_cons_of_mem _ hus)
    cases rest with
    | nil => exact hts
    | cons us rest => exact hts.append (hrest.cons rfl hp)

theorem spacedOut {l : List Tokens} (h : ∀ ts ∈ l, Shows p ts) :
    Shows p (Tokens.spacedOut l) := by
  induction l with
  | nil => exact nil
  | cons ts rest ih =>
    have hts := h ts (List.mem_cons_self ..)
    have hrest := ih fun us hus => h us (List.mem_cons_of_mem _ hus)
    cases rest with
    | nil => exact hts
    | cons us rest => exact hts.append hrest.blank

theorem flatten {l : List Tokens} (h : ∀ ts ∈ l, Shows p ts) :
    Shows p l.flatten := by
  induction l with
  | nil => exact nil
  | cons ts rest ih =>
    rw [List.flatten_cons]
    exact (h ts (List.mem_cons_self ..)).append
      (ih fun us hus => h us (List.mem_cons_of_mem _ hus))

end Shows

/-- The brackets of the tokens fit, outside them stand only tokens with a property `p`, and some of
these have the property `q`. -/
def Bears (p q : Token → Prop) (ts : Tokens) : Prop :=
  ∃ f, Forms ts f ∧ (∀ t, TokenTree.token t ∈ f → p t) ∧ ∃ t, TokenTree.token t ∈ f ∧ q t

namespace Bears

variable {p q : Token → Prop} {ts us : Tokens}

theorem shows (h : Bears p q ts) : Shows p ts := h.imp fun _ ⟨hf, hp, _⟩ => ⟨hf, hp⟩

theorem nests (h : Bears p q ts) : Nests ts := h.shows.nests

theorem head {t : Token} (ht : t.role = .plain) (hp : p t) (hq : q t) (h : Shows p ts) :
    Bears p q (t :: ts) := by
  obtain ⟨f, hf, hpf⟩ := h
  refine ⟨.token t :: f, hf.plain ht, fun u hu => ?_, t, List.mem_cons_self .., hq⟩
  rcases List.mem_cons.mp hu with hu | hu
  · cases hu
    exact hp
  · exact hpf u hu

theorem blank (h : Bears p q ts) : Bears p q (.space :: ts) :=
  h.imp fun _ ⟨hf, hp⟩ => ⟨hf.blank, hp⟩

theorem append_right (h : Bears p q ts) (hus : Shows p us) : Bears p q (ts ++ us) := by
  obtain ⟨f, hf, hpf, t, ht, hq⟩ := h
  obtain ⟨g, hg, hpg⟩ := hus
  refine ⟨f ++ g, hf.append hg, fun u hu => ?_, t, List.mem_append_left _ ht, hq⟩
  exact (List.mem_append.mp hu).elim (hpf u) (hpg u)

theorem append_left (hts : Shows p ts) (h : Bears p q us) : Bears p q (ts ++ us) := by
  obtain ⟨f, hf, hpf⟩ := hts
  obtain ⟨g, hg, hpg, t, ht, hq⟩ := h
  refine ⟨f ++ g, hf.append hg, fun u hu => ?_, t, List.mem_append_right _ ht, hq⟩
  exact (List.mem_append.mp hu).elim (hpf u) (hpg u)

end Bears

end Tokens

end SqlScribe
