import TagTemplate.Proofs.Template.Direct
import TagTemplate.Proofs.Template.Output

/-!
# Any text as a string literal

Three readers go over the characters of a string in a template: the scanner that looks for the end
of the piece, the grammar, and what undoes the backslashes. A backslash before each backslash and
each quote is all that they ask for. Then the string means the text that it was made from, whatever
else the text has in it: closers, openers, other quotes, line breaks.

> `render_literal`: as an output and as the value of an attribute, a literal is rendered as its text,
> escaped once.
-/

namespace TagTemplate

open Lexeme (literal)

variable {q : Char}

/-! ## Keywords -/

/-- One keyword is one attribute; the mark beside it is not written. -/
theorem Attribute.write_keyword (escaper : Escaper) {name : String} (h : name ≠ reservedName)
    (content mark : Content) :
    write escaper [.map [(name, content), (reservedName, mark)]] =
      writePair escaper name content := by
  have htokens : Item.tokens escaper (.map [(name, content), (reservedName, mark)]) =
      [writePair escaper name content] := by
    simp [Item.tokens, h]
  have hnonempty : (writePair escaper name content).isEmpty = false := by
    rw [Bool.eq_false_iff, Ne, String.isEmpty_iff, writePair]
    simp
  rw [write, tokens, List.flatMap_singleton, htokens]
  simp [hnonempty, List.eraseDups_cons]

/-- A keyword has the text of its literal as its value. -/
theorem Argument.exists_readList_literal (hq : q = '"' ∨ q = '\'') (text : String) :
    ∃ args, readList ("k=" ++ literal q text) = .ok args ∧ ∀ scope, evalList scope args =
      .ok [.map [("k", .text text), (Attribute.reservedName, .bool true)]] := by
  obtain ⟨args, hread, hplaceless⟩ :=
    exists_readList (isReadFrom_string hq (rfl : Lexeme.dashedName? "k".toList = _) text)
  refine ⟨args, hread, fun scope => ?_⟩
  have hevaluable : ∀ a ∈ [Argument.mk (some ⟨"k", .none⟩) (.leaf .text text) .none],
      a.value.Evaluable := by
    intro a ha
    cases List.mem_singleton.mp ha
    exact Expr.evaluable_leaf trivial
  rw [evalList_eq_of_placeless hplaceless (evaluable_of_readList hread) hevaluable, evalList,
    evalKeyed, Expr.eval_leaf]
  rfl

namespace Template

variable {env : Environment}

/-! ## Outputs -/

/-- No closer is found in a literal, since none of it is outside of the string. -/
theorem not_closesIn_literal (hq : q = '"' ∨ q = '\'') (text : String) :
    ¬ ClosesIn .output (" " ++ (literal q text ++ " ")).toList := by
  have hcontent : (" " ++ (literal q text ++ " ")).toList =
      ' ' :: q :: (Lexeme.escapedIn q text.toList ++ q :: [' ']) := by
    simp [Lexeme.quotedIn]
  rw [hcontent, closesIn_cons_iff (by decide) _ [], not_or,
    closesIn_string_iff hq (Lexeme.inside_escapedIn q text.toList)]
  exact ⟨fun h => absurd h.1 (by decide), by decide⟩

theorem render_literal_output (hescaper : env.escaper = some .html)
    (hauto : env.config.autoescape = true) (hq : q = '"' ∨ q = '\'') (text : String)
    (locals : Value) :
    env.render ("\x7b\x7b " ++ literal q text ++ " \x7d\x7d") locals = .ok (Html.escape text) := by
  obtain ⟨e, hread, hleaf⟩ := Expr.read_literal hq text
  have hcompile := (compile_output_iff env hread).mpr (not_closesIn_literal hq text)
  have hsource : "\x7b\x7b " ++ literal q text ++ " \x7d\x7d" =
      "\x7b\x7b" ++ (" " ++ (literal q text ++ " ")) ++ "\x7d\x7d" := by
    rw [← String.toList_inj]
    simp
  have heval : e.eval ⟨env, locals, .html⟩ = .ok (.text text) := by
    rw [← Expr.eval_placeless e (Expr.evaluable_of_read hread), hleaf, Expr.eval_leaf]
    rfl
  rw [hsource, render_of_compile hcompile, Environment.renderNodes, hescaper]
  dsimp only
  rw [renderNodes_singleton, renderNode, heval]
  exact congrArg Except.ok (if_pos hauto)

/-! ## Attributes -/

theorem render_literal_attribute {tag : Tag} {name : String}
    (hescaper : env.escaper = some .html) (hname : isBlockName name = true)
    (htag : env.tag? name = some tag) (hblock : tag.definition.isBlock = true)
    (husual : tag.IsUsual) (hown : ∀ own ∈ tag.escaper, own = .html)
    (hq : q = '"' ∨ q = '\'') (text : String) (locals : Value) :
    env.render (wrap name ("k=" ++ literal q text) "") locals =
      .ok ("<" ++ tag.definition.element.text ++ " k=\"" ++ Html.escape text ++ "\"></" ++
        tag.definition.element.text ++ ">") := by
  obtain ⟨args, hread, hvalues⟩ := Argument.exists_readList_literal hq text
  have hescaperIn : tag.escaperIn ⟨.html, locals⟩ = .html := by
    unfold Tag.escaperIn
    cases hown' : tag.escaper with
    | none => rfl
    | some own => exact hown own hown'
  have hattribute : Attribute.writePair .html "k" (.scalar (.text text)) =
      "k=\"" ++ Html.escape text ++ "\"" := by
    have hkey : Html.escape "k" ++ "=\"" = "k=\"" := rfl
    rw [Attribute.writePair, ← hkey]
    rfl
  have hitems : Attribute.Item.ofValues
      [.map [("k", .text text), (Attribute.reservedName, .bool true)]] =
        .ok [.map [("k", .scalar (.text text)), (Attribute.reservedName, .scalar (.bool true))]] :=
    rfl
  rw [render_wrap_text hname htag hblock hread (by decide) hescaper, hvalues]
  show ((tag.invoke _ _ _).mapError _ >>= _) = _
  rw [Tag.invoke_of_isUsual husual, hitems, hescaperIn]
  refine congrArg Except.ok (?_ : elementText _ (Attribute.write _ _) "" = _)
  rw [Attribute.write_keyword _ (by decide), hattribute, elementText, if_neg (by simp),
    ← String.toList_inj]
  simp

/-! ## Both -/

/-- Any text, written as a literal, is rendered as that text where outputs are escaped for markup, and
as the value of an attribute of a tag that writes its element with this escaper. -/
theorem render_literal {tag : Tag} {name : String} (hescaper : env.escaper = some .html)
    (hauto : env.config.autoescape = true) (hname : isBlockName name = true)
    (htag : env.tag? name = some tag) (hblock : tag.definition.isBlock = true)
    (husual : tag.IsUsual) (hown : ∀ own ∈ tag.escaper, own = .html)
    (hq : q = '"' ∨ q = '\'') (text : String) (locals : Value) :
    env.render ("\x7b\x7b " ++ literal q text ++ " \x7d\x7d") locals = .ok (Html.escape text) ∧
      env.render (wrap name ("k=" ++ literal q text) "") locals =
        .ok ("<" ++ tag.definition.element.text ++ " k=\"" ++ Html.escape text ++ "\"></" ++
          tag.definition.element.text ++ ">") :=
  ⟨render_literal_output hescaper hauto hq text locals,
    render_literal_attribute hescaper hname htag hblock husual hown hq text locals⟩

/-- A block tag of one letter. -/
def letterTag : Tag :=
  Tag.ofDefinition ⟨⟨"t", by decide⟩, ⟨"t", by decide⟩, true⟩ none

/-- Closers, an opener, both quotes, backslashes in front of characters of several bytes, and a line
break. -/
def awkwardText : String :=
  "\x7d\x7d %\x7d \x7b% \" ' \\é \\n\n\\"

/-- It as a literal in single quotes. -/
def awkwardLiteral : String :=
  "'\x7d\x7d %\x7d \x7b% \" \\' \\\\é \\\\n\n\\\\'"

/-- It in markup. -/
def awkwardMarkup : String :=
  "\x7d\x7d %\x7d \x7b% &quot; &#39; \\é \\n\n\\"

/-- The literal ends where it ends, in an output and in a block. -/
theorem render_awkwardText :
    (Environment.standard.addTag letterTag).render
          ("\x7b\x7b " ++ awkwardLiteral ++ " \x7d\x7d") .null = .ok awkwardMarkup ∧
      (Environment.standard.addTag letterTag).render (wrap "t" ("k=" ++ awkwardLiteral) "") .null =
        .ok ("<" ++ "t" ++ " k=\"" ++ awkwardMarkup ++ "\"></" ++ "t" ++ ">") := by
  have htag : (Environment.standard.addTag letterTag).tag? "t" = some letterTag := rfl
  have hliteral : literal '\'' awkwardText = awkwardLiteral := by
    decide +kernel
  have hescape : Html.escape awkwardText = awkwardMarkup := by
    decide +kernel
  have hrender := render_literal rfl rfl (by decide) htag rfl (Tag.isUsual_ofDefinition _ _)
    (fun _ hown => by cases hown) (Or.inr rfl) awkwardText .null
  rwa [hliteral, hescape] at hrender

end Template

end TagTemplate
