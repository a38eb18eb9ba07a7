import OpenApiTypings.Proofs.Declarations.Literals

/-!
# Literals of written files

A type is compiled, put into fields at any depth, and written without blanks at the ends of
lines.  All that this does to its text is to change the white space between the chunks of it, so
every literal is found in the file as it was compiled.  That needs literals which are not broken
over two lines, and the compiler breaks a literal for one reason alone: a pattern with a line
break is put into a template as it stands.
-/

namespace OpenApiTypings

open Output (normalize)
open Schema (Call Calls GivesKeysAlong)
open Text (Closed OnOneLine Unbroken Shows chunks hang)

/-! ### The text of a type -/

/-- What is known of the literals in the text of a type with key types that are allowed. -/
structure TypeExpr.KeepsLiterals (allowed : KeyType → Prop) (type : TypeExpr) : Prop where
  /-- The literals are closed, and they are those of the type unless one of these is broken. -/
  legible : type.Legible
  /-- A literal that is broken is the template of a key type. -/
  broken : ∀ token ∈ type.literals, '\n' ∈ token → ∃ text,
    allowed (.startingWith text) ∧ '\n' ∈ text.toList ∧
      token = (KeyType.startingWith text).render.toList
  /-- If no key type breaks the line, the text is cut into the same chunks and holds the literals
  of the type when it is moved to the right. -/
  moved : (∀ key, allowed key → ¬ key.BreaksLine) → ∀ indent : List Char, (∀ c ∈ indent, c = ' ') →
    chunks (hang indent type.render.toList) = chunks type.render.toList ∧
      Text.literals (hang indent type.render.toList) = type.literals

theorem TypeExpr.Legible.keepsLiterals {allowed : KeyType → Prop} {type : TypeExpr}
    (h : type.Legible) (hwritten : ∀ token ∈ type.literals, WritesLiteral allowed token) :
    type.KeepsLiterals allowed where
  legible := h
  broken token htoken hbreak := (hwritten token htoken).exists_template hbreak
  moved hallowed indent hindent := by
    have hline := TypeExpr.onOneLine_of_writesLiteral hallowed hwritten
    have hunbroken := Shows.unbroken h hline
    refine ⟨Text.chunks_hang hindent hunbroken, ?_⟩
    rw [Text.literals_hang hindent hunbroken, h.literals_eq hline]

/-! ### The text of a file -/

theorem Document.keptInTypes_legible (doc : Document) :
    doc.KeptInTypes fun _ type => type.Legible where
  toKeptInTypes := Schema.keptInTypes_legible
  lookup _ sec name _ := Section.shows_lookupText sec name

theorem Document.keptInTypes_writesLiteral (doc : Document) :
    doc.KeptInTypes fun _ type =>
      ∀ token ∈ type.literals, TypeExpr.WritesLiteral KeyType.Printable token where
  toKeptInTypes := ⟨Schema.keptInTypes_writesLiteral KeyType.Printable⟩
  lookup _ sec name _ := TypeExpr.writesLiteral_component sec name

/-- A written file is the banner, as it is written alone, in front of what is written of the
declarations. -/
theorem exists_normalize_render_append (banner : Banner) {body : List Char}
    (hbody : body = [] ∨ Output.significantLines body ≠ []) (hunbroken : Unbroken body) :
    ∃ rest, normalize (banner.render.toList ++ body) = normalize banner.render.toList ++ rest ∧
      chunks rest = chunks body := by
  have hbanner := normalize_render banner []
  rw [List.append_nil, closing_nil] at hbanner
  rw [hbanner, normalize_render]
  rcases hbody with rfl | hlines
  · rw [closing_nil]
    exact ⟨[], (List.append_nil _).symm, rfl⟩
  · refine ⟨'\n' :: normalize body, ?_, ?_⟩
    · have hend : Output.bannerEnd = "*/\n".toList ++ ['\n'] := by decide
      rw [closing_eq hlines, hend]
      simp only [List.append_assoc, List.cons_append, List.nil_append]
    · have hline : chunks (['\n'] ++ normalize body) = chunks (normalize body) :=
        Text.chunks_append_of_blank (by simp [Text.isBlank]) _
      exact hline.trans (Text.chunks_normalize hunbroken)

/-- What is known of the literals in the file of declarations. -/
structure Declarations.KeepsLiterals (decls : Declarations) : Prop where
  /-- What is stored is the text of a type whose literals are known. -/
  stored : decls.Stores fun text =>
    ∃ type : TypeExpr, text = type.render ∧ type.KeepsLiterals KeyType.Printable
  /-- The literals are closed, and they are those of the keys, the enums and the stored texts
  unless one of these is broken. -/
  shows : Shows decls.render decls.literals
  /-- If no stored text has a broken literal, the file holds all these literals behind its
  banner, and is cut into the same chunks there as before it was written. -/
  written : (decls.Stores fun text => OnOneLine (Text.literals text.toList)) →
    ∀ banner : Banner, ∃ rest,
      normalize (decls.renderFile banner).toList = normalize banner.render.toList ++ rest ∧
        chunks rest = chunks decls.render.toList ∧ Text.literals rest = decls.literals

theorem build_keepsLiterals {doc : Document} {decls : Declarations} (h : build doc = .ok decls) :
    decls.KeepsLiterals := by
  obtain ⟨hclosed, -, hreaches⟩ := stores_of_build (T := fun _ text => Closed text.toList) h
    fun _ hm => (doc.keptInTypes_atomic.compiles hm).mono fun _ _ hatomic => hatomic.balanced.closed
  obtain ⟨hstored, -, -⟩ := stores_of_build (T := fun _ text =>
    ∃ type : TypeExpr, text = type.render ∧ type.KeepsLiterals KeyType.Printable) h
    fun m hm registry => by
      obtain ⟨hlater, hlegible⟩ := doc.keptInTypes_legible.compiles hm registry
      obtain ⟨-, hwritten⟩ := doc.keptInTypes_writesLiteral.compiles hm registry
      exact ⟨hlater, fun later hreaches => ⟨_, rfl,
        (hlegible later hreaches).keepsLiterals (hwritten later hreaches)⟩⟩
  have hshows := Declarations.shows_render hclosed (hreaches.sound Registry.sound_empty)
  refine ⟨hstored, hshows, fun hline banner => ?_⟩
  have hlisted : Registry.empty.Listed := fun _ hentry => absurd hentry List.not_mem_nil
  have htokens := Declarations.onOneLine_literals hline (hreaches.listed hlisted)
  obtain ⟨rest, hwritten, hchunks⟩ := exists_normalize_render_append banner
    decls.render_eq_nil_or (hshows.unbroken htokens)
  refine ⟨rest, ?_, hchunks, ?_⟩
  · rw [Declarations.renderFile, String.toList_append]
    exact hwritten
  · rw [Text.literals_eq_flatMap, hchunks, ← Text.literals_eq_flatMap]
    exact hshows.literals_eq htokens

/-- The compiler breaks no literal over two lines but the template of a pattern with a line
break, and whatever is done to the text of a type on its way into the file changes nothing but
white space between the literals, as long as none is broken. -/
theorem layout_keeps_literals (schemas : Table (RefOr Json)) (start : Call) (registry : Registry)
    (doc : Document) :
    ((Schema.outcome schemas start).run registry).value.KeepsLiterals
        (GivesKeysAlong schemas start) ∧
      ∀ decls, build doc = .ok decls → decls.KeepsLiterals :=
  ⟨(Schema.legible_outcome schemas start registry).keepsLiterals
    (Schema.writesLiteral_outcome schemas start registry), fun _ => build_keepsLiterals⟩

/-- Values under the keys that the pattern admits. -/
def labels (pattern : String) : Table Json :=
  [("patternProperties", .object [(pattern, .object [("type", .string "string")])]),
    ("type", .string "object")]

/-- A document with labels that are nested in a component. -/
def labelsDocument : Document where
  components := some { schemas := [("Item", .inline (.object
    [("properties", .object [("labels", .object (labels "^x-"))]), ("type", .string "object")]))] }

/-- What is declared for the document. -/
def labelsDeclarations : Declarations where
  schemas := [("Item", "\x7b\n  labels?: \x7b [K in `x-$\x7bstring\x7d`]?: string \x7d;\n\x7d")]

/-- The labels of the document give one key type. -/
theorem givesKeysAlong_labels {scope : Schema.Scope} {key : KeyType}
    (h : GivesKeysAlong [] (.node ⟨labels "^x-"⟩ scope) key) : key = .startingWith "x-" := by
  have hway : ∀ call, Relation.ReflTransGen (Calls []) (.node ⟨labels "^x-"⟩ scope) call →
      call = .node ⟨labels "^x-"⟩ scope ∨
        (∃ inner, call = .nested (.object [("type", .string "string")]) inner) ∨
          ∃ inner, call = .node ⟨[("type", .string "string")]⟩ inner := by
    intro call hcall
    induction hcall with
    | refl => exact Or.inl rfl
    | tail _ hcalls ih =>
      rcases ih with rfl | ⟨inner, rfl⟩ | ⟨inner, rfl⟩
      · cases hcalls with
        | part hpart =>
          have hparts : Schema.nodeParts scope.mode ⟨labels "^x-"⟩ =
              [⟨2, "Pattern1", .object [("type", .string "string")]⟩] := rfl
          rw [hparts] at hpart
          obtain rfl := List.mem_singleton.mp hpart
          exact Or.inr (Or.inl ⟨_, rfl⟩)
      · cases hcalls with
        | nestedReference _ hnode href =>
          cases hnode
          cases href
        | nestedNode _ hnode =>
          cases hnode
          exact Or.inr (Or.inr ⟨_, rfl⟩)
      · cases hcalls with
        | part hpart => cases hpart
  obtain ⟨node, inner, hnode, -, pattern, fields, hpattern, rfl⟩ := h
  rcases hway _ hnode with heq | ⟨_, heq⟩ | ⟨_, heq⟩
  · cases heq
    obtain ⟨rfl, -⟩ : pattern = "^x-" ∧ _ := Prod.mk.inj (List.mem_singleton.mp hpattern)
    decide
  · cases heq
  · cases heq
    cases hpattern

theorem layout_keeps_literals_labels :
    build labelsDocument = .ok labelsDeclarations ∧
      (∃ rest, normalize (labelsDeclarations.renderFile { generatedAt := ⟨0, 0⟩ }).toList =
          normalize ({ generatedAt := ⟨0, 0⟩ } : Banner).render.toList ++ rest ∧
        Text.literals rest = ["`x-$\x7bstring\x7d`".toList]) ∧
      Text.literals (hang [' ', ' ']
        ((Schema.outcome [] (.node ⟨labels "^x-"⟩ (.top .component ""))).run
          Registry.empty).value.render.toList) = ["`x-$\x7bstring\x7d`".toList] := by
  have hbuild : build labelsDocument = .ok labelsDeclarations := rfl
  have hstored : labelsDeclarations.Stores fun text => OnOneLine (Text.literals text.toList) :=
    ⟨by decide, nofun, nofun⟩
  have hunbroken : ∀ key, GivesKeysAlong [] (.node ⟨labels "^x-"⟩ (.top .component "")) key →
      ¬ key.BreaksLine := by
    intro key hkey
    rw [givesKeysAlong_labels hkey]
    show '\n' ∉ "x-".toList
    decide
  obtain ⟨hcompiled, hbuilt⟩ := layout_keeps_literals [] (.node ⟨labels "^x-"⟩ (.top .component ""))
    Registry.empty labelsDocument
  obtain ⟨rest, hfile, -, hrest⟩ := (hbuilt _ hbuild).written hstored { generatedAt := ⟨0, 0⟩ }
  obtain ⟨-, hmoved⟩ := hcompiled.moved hunbroken [' ', ' '] (by simp)
  exact ⟨hbuild, ⟨rest, hfile, hrest.trans (by decide)⟩, hmoved.trans (by decide)⟩

/-- A pattern with a line break, whose template is broken, and is another one when it is moved. -/
theorem not_layout_keeps_literals :
    (¬ ∀ (schemas : Table (RefOr Json)) (slot : RefOr Json) (scope : Schema.Scope)
      (registry : Registry), OnOneLine (Text.literals
        ((Schema.compile schemas slot scope).run registry).value.render.toList)) ∧
    ¬ ∀ (schemas : Table (RefOr Json)) (slot : RefOr Json) (scope : Schema.Scope)
      (registry : Registry),
        Text.literals (hang [' ', ' ']
          ((Schema.compile schemas slot scope).run registry).value.render.toList) =
        Text.literals ((Schema.compile schemas slot scope).run registry).value.render.toList := by
  have hvalue : ((Schema.compile [] (.inline (.object (labels "^x\ny")))
      (.top .component "")).run Registry.empty).value =
        .mapped [.startingWith "x\ny"] .string := rfl
  refine ⟨fun h => ?_, fun h => ?_⟩
  · have hline := h [] (.inline (.object (labels "^x\ny"))) (.top .component "") Registry.empty
    rw [hvalue] at hline
    revert hline
    decide
  · have hsame := h [] (.inline (.object (labels "^x\ny"))) (.top .component "") Registry.empty
    rw [hvalue] at hsame
    revert hsame
    decide

end OpenApiTypings
