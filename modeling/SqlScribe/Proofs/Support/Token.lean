import SqlScribe.Dialect.Profile
import SqlScribe.Token
/-! # Constructs in tokens

Some constructs of the language are there in some dialects only. Each of them is told by a few
tokens in a row, so that a list of tokens can be looked through for them one token at a time, with a
glance at what follows.

* `Construct`, `Construct.spelling`, `Dialect.has`: the constructs, their tokens, and which dialect
  has them.
* `Tokens.Fits`: the tokens show no construct that the dialect does not have.
* `Tokens.Trails`: the same also behind other tokens, for they do not complete what those begin.
* `Tokens.Fits.has`: a construct whose tokens stand in fitting ones is there. -/

namespace SqlScribe

/-- A construct of the language that only some dialects have. -/
inductive Construct where
  /-- The `TOP` clause. -/
  | top
  /-- The `DISTINCT ON` clause. -/
  | distinctOn
  /-- The operator for matches in which case does not count. -/
  | ilike
  /-- The operator for matches of file name patterns. -/
  | glob
  /-- An operator on JSON documents. -/
  | json (op : JsonOp)
  /-- The `RETURNING` clause. -/
  | returning
  /-- The `ON CONFLICT` clause. -/
  | onConflict
  /-- The `ON DUPLICATE KEY UPDATE` clause. -/
  | onDuplicateKey
  /-- The `FOR UPDATE` clause. -/
  | forUpdate
  /-- Some words between `INSERT` and `INTO` that make an insertion pass over conflicts. -/
  | insertIgnore (words : String)
  /-- The `REPLACE INTO` statement. -/
  | replace
  /-- The `INSERT OR REPLACE` statement. -/
  | insertOrReplace
deriving Repr, DecidableEq

/-- The tokens by which a construct is told. -/
def Construct.spelling : Construct → Tokens
  | .top => [.word .TOP]
  | .distinctOn => [.word .DISTINCT, .space, .word .ON]
  | .ilike => [.operator "ILIKE"]
  | .glob => [.operator "GLOB"]
  | .json op => [.operator op.symbol]
  | .returning => [.word .RETURNING]
  | .onConflict => [.word .ON, .space, .word .CONFLICT]
  | .onDuplicateKey => [.word .ON, .space, .raw "DUPLICATE KEY", .space, .word .UPDATE]
  | .forUpdate => [.word .FOR, .space, .word .UPDATE]
  | .insertIgnore words => [.word .INSERT, .space, .raw words, .space, .word .INTO]
  | .replace => [.word .REPLACE, .space, .word .INTO]
  | .insertOrReplace => [.word .INSERT, .space, .word .OR, .space, .word .REPLACE]

/-- The dialect has a construct. -/
def Dialect.has (d : Dialect) : Construct → Bool
  | .top => d.profile.top
  | .distinctOn => d.profile.distinctOn
  | .ilike => d.profile.ilike
  | .glob => d.profile.glob
  | .json _ => d.profile.jsonOperators
  | .returning => d.profile.returning
  | .onConflict => d.profile.upsert = .onConflict
  | .onDuplicateKey => d.profile.upsert = .onDuplicateKey
  | .forUpdate => d.profile.forUpdate
  | .insertIgnore words => d.profile.insertIgnore = some words
  | .replace => d.profile.replace
  | .insertOrReplace => d.profile.insertOrReplace

/-- Where there is `INSERT OR REPLACE`, there is `REPLACE INTO`, whose tokens it ends with. -/
theorem Dialect.has_replace {d : Dialect} (h : d.has .insertOrReplace = true) :
    d.has .replace = true := by
  cases d <;> first | rfl | cases h

namespace Token

/-- The token, with what follows, shows only what the dialect has. Most of the tokens that tell of a
construct are used for nothing else and need no glance at what follows. -/
def Fits (d : Dialect) (t : Token) (after : Tokens) : Prop :=
  match t with
  | .word .TOP => d.has .top = true
  | .word .RETURNING => d.has .returning = true
  | .word .CONFLICT => d.has .onConflict = true
  | .word .FOR => d.has .forUpdate = true
  | .word .REPLACE => d.has .replace = true
  | .operator symbol => ∀ f : Construct, f.spelling = [.operator symbol] → d.has f = true
  | .word .DISTINCT =>
    ∃ rest, after = .space :: rest ∧ (rest.head? = some (.word .ON) → d.has .distinctOn = true)
  | .word .INSERT =>
    (∃ rest, after = .space :: .word .INTO :: rest) ∨
    (∃ words rest, after = .space :: .raw words :: rest ∧ d.has (.insertIgnore words) = true) ∨
    ∃ rest, after = .space :: .word .OR :: rest ∧ d.has .insertOrReplace = true
  | .raw _ => [.space, .word .UPDATE] <+: after → d.has .onDuplicateKey = true
  | _ => True

/-- The token tells of nothing and completes nothing. -/
def isNeutral : Token → Bool
  | .word .TOP | .word .RETURNING | .word .CONFLICT | .word .FOR | .word .REPLACE
  | .word .DISTINCT | .word .INSERT | .word .ON | .word .UPDATE => false
  | .operator _ | .raw _ | .space => false
  | _ => true

variable {d : Dialect} {t : Token} {after : Tokens}

theorem fits_of_isNeutral (h : t.isNeutral = true) : t.Fits d after := by
  cases t with
  | word k =>
    cases k <;> trivial
  | operator symbol => cases h
  | raw text => cases h
  | _ => trivial

end Token

namespace Tokens

/-- The tokens show only what the dialect has. -/
def Fits (d : Dialect) : Tokens → Prop
  | [] => True
  | t :: ts => t.Fits d ts ∧ Fits d ts

/-- The tokens may stand behind any that fit. -/
structure Trails (d : Dialect) (ts : Tokens) : Prop where
  fits : Fits d ts
  not_on : ts.head? ≠ some (.word .ON)
  not_update : ts.head? ≠ some (.word .UPDATE)
  not_space_update : ¬ [.space, .word .UPDATE] <+: ts

end Tokens

variable {d : Dialect} {t : Token} {ts us after : Tokens}

/-- Trailing tokens have no share in an update behind a blank. -/
theorem Tokens.Trails.space_update (hus : Trails d us)
    (h : [.space, .word .UPDATE] <+: ts ++ us) : [.space, .word .UPDATE] <+: ts := by
  match ts, h with
  | [], h => exact absurd h hus.not_space_update
  | [_], h =>
    obtain ⟨rest, hrest⟩ := (List.cons_prefix_cons.mp h).2
    have hhead : us.head? = some (.word .UPDATE) := (congrArg List.head? hrest).symm
    exact absurd hhead hus.not_update
  | _ :: _ :: rest, h =>
    obtain ⟨rfl, hrest⟩ := List.cons_prefix_cons.mp h
    obtain ⟨rfl, -⟩ := List.cons_prefix_cons.mp hrest
    exact ⟨rest, rfl⟩

theorem Token.Fits.append (h : t.Fits d after) (hts : Tokens.Trails d ts) :
    t.Fits d (after ++ ts) := by
  cases t with
  | word k =>
    cases k with
    | DISTINCT =>
      obtain ⟨rest, rfl, hon⟩ := h
      refine ⟨rest ++ ts, rfl, fun hhead => hon ?_⟩
      cases rest with
      | nil => exact absurd hhead hts.not_on
      | cons t rest => exact hhead
    | INSERT =>
      rcases h with ⟨rest, rfl⟩ | ⟨words, rest, rfl, hd⟩ | ⟨rest, rfl, hd⟩
      · exact .inl ⟨rest ++ ts, rfl⟩
      · exact .inr (.inl ⟨words, rest ++ ts, rfl, hd⟩)
      · exact .inr (.inr ⟨rest ++ ts, rfl, hd⟩)
    | _ => exact h
  | raw text => exact fun hupdate => h (hts.space_update hupdate)
  | _ => exact h

namespace Tokens

namespace Fits

theorem nil : Fits d [] := trivial

theorem cons (ht : t.Fits d ts) (h : Fits d ts) : Fits d (t :: ts) := ⟨ht, h⟩

theorem append (h : Fits d ts) (h' : Trails d us) : Fits d (ts ++ us) := by
  induction ts with
  | nil => exact h'.fits
  | cons t ts ih => exact ⟨h.1.append h', ih h.2⟩

theorem space (h : Fits d ts) : Fits d (.space :: ts) := ⟨trivial, h⟩

theorem on (h : Fits d ts) : Fits d (.word .ON :: ts) := ⟨trivial, h⟩

theorem update (h : Fits d ts) : Fits d (.word .UPDATE :: ts) := ⟨trivial, h⟩

theorem of_append (h : Fits d (ts ++ us)) : Fits d us := by
  induction ts with
  | nil => exact h
  | cons t ts ih => exact ih h.2

end Fits

namespace Trails

theorem nil : Trails d [] :=
  ⟨trivial, nofun, nofun, by simp⟩

theorem append (h : Trails d ts) (h' : Trails d us) : Trails d (ts ++ us) := by
  refine ⟨h.fits.append h', ?_, ?_, ?_⟩
  · cases ts with
    | nil => exact h'.not_on
    | cons t ts => exact h.not_on
  · cases ts with
    | nil => exact h'.not_update
    | cons t ts => exact h.not_update
  · exact fun hupdate => h.not_space_update (h'.space_update hupdate)

/-- A token that is no blank may stand behind others if it does not complete what they begin. -/
theorem cons' (hon : t ≠ .word .ON) (hupdate : t ≠ .word .UPDATE) (hspace : t ≠ .space)
    (ht : t.Fits d ts) (h : Fits d ts) : Trails d (t :: ts) := by
  refine ⟨⟨ht, h⟩, fun heq => hon (Option.some.inj heq), fun heq => hupdate (Option.some.inj heq),
    fun hprefix => hspace ?_⟩
  exact (List.cons_prefix_cons.mp hprefix).1.symm

theorem word' {k : Keyword} (hk : k ≠ .ON ∧ k ≠ .UPDATE) (ht : (Token.word k).Fits d ts)
    (h : Fits d ts) : Trails d (.word k :: ts) :=
  cons' (fun heq => hk.1 (Token.word.inj heq)) (fun heq => hk.2 (Token.word.inj heq)) nofun ht h

theorem cons (ht : t.isNeutral = true) (h : Fits d ts) : Trails d (t :: ts) := by
  refine cons' ?_ ?_ ?_ (Token.fits_of_isNeutral ht) h
  all_goals
    rintro rfl
    cases ht

theorem one (ht : t.isNeutral = true) : Trails d [t] := cons ht .nil

/-- Behind a blank anything may stand that is no update. -/
theorem space (h : Fits d ts) (hupdate : ts.head? ≠ some (.word .UPDATE)) :
    Trails d (.space :: ts) := by
  refine ⟨⟨trivial, h⟩, nofun, nofun, fun hprefix => ?_⟩
  obtain ⟨rest, hrest⟩ := (List.cons_prefix_cons.mp hprefix).2
  exact hupdate (congrArg List.head? hrest).symm

theorem blank (h : Trails d ts) : Trails d (.space :: ts) := space h.fits h.not_update

/-- A text that is written as it stands. -/
theorem raw (text : String) : Trails d [.raw text] :=
  cons' nofun nofun nofun (fun h => absurd h (by simp)) .nil

theorem raw_cons (text : String) (h : Trails d ts) : Trails d (.raw text :: ts) :=
  (raw text).append h

theorem word {k : Keyword} (hk : (Token.word k).isNeutral = true) (h : Fits d ts) :
    Trails d (.word k :: .space :: ts) :=
  cons hk h.space

theorem parens (h : Fits d ts) : Trails d (parens ts) :=
  cons rfl (h.append (one rfl))

theorem parensIf (wrap : Bool) (h : Trails d ts) : Trails d (parensIf wrap ts) := by
  cases wrap with
  | false => exact h
  | true => exact parens h.fits

theorem spaced (ht : t.isNeutral = true) : Trails d (spaced t) :=
  (cons ht (.space .nil)).blank

end Trails

/-! ## Lists -/

/-- All tokens of a list may stand behind others. -/
abbrev AllTrail (d : Dialect) (l : List Tokens) : Prop := ∀ ts ∈ l, Trails d ts

theorem AllTrail.pair (hts : Trails d ts) (hus : Trails d us) : AllTrail d [ts, us] := by
  intro vs hvs
  rcases List.mem_cons.mp hvs with rfl | hvs
  · exact hts
  · cases List.mem_singleton.mp hvs
    exact hus

variable {l : List Tokens}

theorem Trails.listed (hl : AllTrail d l) : Trails d (listed l) := by
  induction l with
  | nil => exact .nil
  | cons ts l ih =>
    have hts := hl ts List.mem_cons_self
    cases l with
    | nil => exact hts
    | cons us l =>
      have hrest := ih fun vs hvs => hl vs (List.mem_cons_of_mem _ hvs)
      exact hts.append (.cons rfl hrest.fits)

theorem Trails.spacedOut (hl : AllTrail d l) : Trails d (spacedOut l) := by
  induction l with
  | nil => exact .nil
  | cons ts l ih =>
    have hts := hl ts List.mem_cons_self
    cases l with
    | nil => exact hts
    | cons us l =>
      have hrest := ih fun vs hvs => hl vs (List.mem_cons_of_mem _ hvs)
      exact hts.append hrest.blank

theorem Trails.flatten (hl : AllTrail d l) : Trails d l.flatten := by
  induction l with
  | nil => exact .nil
  | cons ts l ih =>
    exact (hl ts List.mem_cons_self).append
      (ih fun us hus => hl us (List.mem_cons_of_mem _ hus))

theorem Trails.flatMap {α : Type} {l : List α} {g : α → Tokens} (h : ∀ a ∈ l, Trails d (g a)) :
    Trails d (l.flatMap g) := by
  rw [List.flatMap_def]
  refine .flatten fun ts hts => ?_
  obtain ⟨a, ha, rfl⟩ := List.mem_map.mp hts
  exact h a ha

theorem Trails.idents (names : List String) : Trails d (idents names) := by
  refine .listed fun ts hts => ?_
  obtain ⟨name, -, rfl⟩ := List.mem_map.mp hts
  exact .one rfl

/-! ## What fitting tokens show -/

/-- A construct whose tokens stand at the head of fitting ones is there. -/
theorem Fits.has_of_head (f : Construct) (h : Fits d (f.spelling ++ after)) : d.has f = true := by
  cases f with
  | top | returning | forUpdate | replace => exact h.1
  | ilike | glob | json => exact h.1 _ rfl
  | onConflict => exact h.2.2.1
  | distinctOn =>
    obtain ⟨rest, hrest, hon⟩ := h.1
    cases hrest
    exact hon rfl
  | onDuplicateKey => exact h.2.2.1 ⟨after, rfl⟩
  | insertIgnore words =>
    rcases h.1 with ⟨rest, hrest⟩ | ⟨words', rest, hrest, hd⟩ | ⟨rest, hrest, hd⟩
    · cases hrest
    · cases hrest
      exact hd
    · cases hrest
  | insertOrReplace =>
    rcases h.1 with ⟨rest, hrest⟩ | ⟨words', rest, hrest, hd⟩ | ⟨rest, hrest, hd⟩
    · cases hrest
    · cases hrest
    · exact hd

/-- Every construct whose tokens stand in fitting ones is there. -/
theorem Fits.has {f : Construct} (h : Fits d ts) (hf : f.spelling <:+: ts) : d.has f = true := by
  obtain ⟨before, after, rfl⟩ := hf
  rw [List.append_assoc] at h
  exact h.of_append.has_of_head f

end Tokens

end SqlScribe
