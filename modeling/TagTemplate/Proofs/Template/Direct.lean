import TagTemplate.Proofs.Entries
import TagTemplate.Proofs.Expression.Leaf
import TagTemplate.Proofs.Template.Wrap

/-!
# Tags in templates and tags on their own

A template finds the arguments of a tag in its source, evaluates them, and gives the tag a body that
is rendered when the tag asks for it. If the arguments are variables and the body is plain text, all
this comes to nothing: the tag is invoked with the values of the variables and with the text.

> `renderWithTags_iff_invoke`: a block tag in a template gives the text, or refuses the argument, that
> it gives or refuses when it is invoked directly.
-/

namespace TagTemplate

/-- A name that stands for a variable: it is no word of the language, and has no dot in it. -/
structure IsVariable (name : String) : Prop where
  whole : Lexeme.name? name.toList = some (name.toList, [])
  free : name ∉ Lexeme.reservedWords

/-- A variable as an argument, without a place. -/
def Argument.ofVariable (name : String) : Argument :=
  ⟨none, .leaf .path name, .none⟩

/-! ## Reading variables -/

theorem IsVariable.dot_notMem {name : String} (h : IsVariable name) : '.' ∉ name.toList := by
  intro hdot
  exact absurd (Lexeme.mem_name? h.whole '.' hdot) (by decide)

theorem IsVariable.isReadFrom {name : String} (h : IsVariable name) :
    (Argument.ofVariable name).IsReadFrom name := by
  refine Argument.isReadFrom_path (Lexeme.path?_of_name? h.whole) fun w hw heq => h.free ?_
  have hdots : ∀ c ∈ name.toList, (c != '.') = true := by
    intro c hc
    rw [bne_iff_ne]
    intro hdot
    exact h.dot_notMem (hdot ▸ hc)
  rw [← List.append_nil name.toList, List.takeWhile_append_of_pos hdots, List.takeWhile_nil,
    List.append_nil] at heq
  rwa [String.toList_inj.mp heq]

/-! ## Evaluating variables -/

/-- A path without dots is a single segment. -/
theorem pathSegments_of_notMem {cs : List Char} (h : '.' ∉ cs) : pathSegments cs = [cs] := by
  induction cs with
  | nil => rfl
  | cons c cs ih =>
    obtain ⟨hc, hcs⟩ := not_or.mp (mt List.mem_cons.mpr h)
    rw [pathSegments, if_neg (Ne.symm hc), ih hcs]

/-- A variable is looked up among the variables of the render. -/
theorem IsVariable.lookup_eq {name : String} (h : IsVariable name) {env : Environment}
    {escaper : Escaper} {entries : Entries Value} {v : Value}
    (hget : Entries.get? name entries = some v) :
    Scope.lookup ⟨env, .map entries, escaper⟩ name = .ok v := by
  have hfollow : Scope.follow (.map entries) [name] = some v := by
    show (Entries.get? name entries).bind (Scope.follow · []) = _
    rw [hget]
    rfl
  unfold Scope.lookup
  rw [pathSegments_of_notMem h.dot_notMem, List.map_singleton, String.ofList_toList, hfollow]

/-- Values that stand under no key keep their order. -/
theorem Argument.arrange_positional (values : List Value) :
    arrange (values.map fun v => (none, v)) = values := by
  have hpositional : values.filterMap some = values := List.filterMap_some
  have hkeywords : values.filterMap (fun _ => (none : Option (String × Value))) = [] :=
    List.filterMap_eq_nil_iff.mpr fun _ _ => rfl
  unfold arrange
  rw [List.filterMap_map, List.filterMap_map]
  show (if (values.filterMap fun _ => (none : Option (String × Value))).isEmpty = true then
    values.filterMap some else _) = values
  rw [hkeywords, hpositional]
  rfl

theorem Argument.evalList_ofVariable {scope : Scope} {entries : Entries Value}
    (h : ∀ e ∈ entries, scope.lookup e.1 = .ok e.2) :
    evalList scope (entries.map fun e => Argument.ofVariable e.1) =
      .ok (entries.map Prod.snd) := by
  have hkeyed : evalKeyed scope (entries.map fun e => Argument.ofVariable e.1) =
      .ok ((entries.map Prod.snd).map fun v => (none, v)) := by
    induction entries with
    | nil => rfl
    | cons e rest ih =>
      obtain ⟨he, hrest⟩ := List.forall_mem_cons.mp h
      have hvalue : (Expr.leaf .path e.1).eval scope = .ok e.2 := by
        rw [Expr.eval_leaf]
        exact he
      rw [List.map_cons, evalKeyed, ih hrest]
      show ((Expr.leaf .path e.1).eval scope >>= _) = _
      rw [hvalue]
      rfl
  rw [evalList, hkeyed]
  exact congrArg Except.ok (arrange_positional _)

/-- Variables with a blank between any two of them are an argument list, whose values are theirs. -/
theorem Argument.exists_readList_variables {entries : Entries Value}
    (hnames : ∀ e ∈ entries, IsVariable e.1) (hnodup : (Entries.names entries).Nodup) :
    ∃ args, Argument.readList (" ".intercalate (Entries.names entries)) = .ok args ∧
      ∀ env escaper, evalList ⟨env, .map entries, escaper⟩ args = .ok (entries.map Prod.snd) := by
  obtain ⟨args, hread, hplaceless⟩ := readList_blankSeparated fun e he => (hnames e he).isReadFrom
  refine ⟨args, hread, fun env escaper => ?_⟩
  have hevaluable : ∀ a ∈ entries.map fun e => ofVariable e.1, a.value.Evaluable := by
    intro a ha
    obtain ⟨e, -, rfl⟩ := List.mem_map.mp ha
    exact Expr.evaluable_leaf trivial
  rw [evalList_eq_of_placeless hplaceless (evaluable_of_readList hread) hevaluable]
  refine evalList_ofVariable fun e he => (hnames e he).lookup_eq ?_
  exact Entries.get?_of_mem hnodup he

/-- A tag sees of its body what the body gives. -/
theorem Tag.invoke_of_resolve {body body' : Body} (h : body.resolve = body'.resolve) (tag : Tag)
    (ctx : RenderContext) (values : List Value) :
    tag.invoke ctx values body = tag.invoke ctx values body' := by
  unfold Tag.invoke
  cases tag.prepare ctx values with
  | error e => rfl
  | ok rendering =>
    cases rendering with
    | done result => rfl
    | ofBody next =>
      show (next body.resolve).map _ = (next body'.resolve).map _
      rw [h]

namespace Template

/-! ## A tag around plain text -/

variable {env : Environment}

/-- A text without braces is the only piece of itself. -/
theorem eq_text_of_mem_pieces {body : String} (hbody : '\x7b' ∉ body.toList) :
    ∀ p ∈ pieces body.toList, p = .text body.toList := by
  intro p hp
  rw [pieces_of_notMem hbody, textPieces] at hp
  split at hp
  · cases hp
  · exact List.mem_singleton.mp hp

section Wrap

variable {tag : Tag} {name signature body : String} {args : List Argument}
  (hname : isBlockName name = true) (htag : env.tag? name = some tag)
  (hblock : tag.definition.isBlock = true) (hargs : Argument.readList signature = .ok args)
  (hbody : '\x7b' ∉ body.toList)
include hname htag hblock hargs hbody

/-- A text without braces in a tag is the text of its body. -/
theorem compile_wrap_text :
    ∃ args' nodes, Argument.readList (" " ++ (signature ++ " ")) = .ok args' ∧
      args'.map Argument.placeless = args.map Argument.placeless ∧
      (∀ scope, renderNodes scope nodes = .ok body) ∧
      env.compile (wrap name signature body) = .ok [.call tag ⟨name, args', some nodes⟩] := by
  obtain ⟨nodes, hlinear, hrender, hcalls⟩ := exists_linear_textPieces env body.toList
  rw [← pieces_of_notMem hbody] at hlinear
  rw [String.ofList_toList] at hrender
  have hend : body.toList.getLast? ≠ some '\x7b' := fun hlast => hbody (List.mem_of_getLast? hlast)
  have htext : ∀ content, .text content ∈ pieces body.toList →
      ∀ m : Mark, ¬ m.opener <:+: content := by
    intro content hcontent m hopener
    cases eq_text_of_mem_pieces hbody _ hcontent
    exact hbody (hopener.subset (List.mem_cons_self ..))
  obtain ⟨args', hargs', hplaceless, hcompile⟩ := compile_around hname htag hblock hargs
    (compile_eq_ok_iff_pieces.mpr hlinear) hend htext
    (fun m content hcontent _ => by cases eq_text_of_mem_pieces hbody _ hcontent)
    (fun node hnode => hcalls node hnode _)
  exact ⟨args', nodes, hargs', hplaceless, hrender, hcompile⟩

/-- A tag around a text without braces is invoked with that text. -/
theorem render_wrap_text {escaper : Escaper} (hescaper : env.escaper = some escaper)
    (locals : Value) :
    env.render (wrap name signature body) locals = (do
      let values ← Argument.evalList ⟨env, locals, escaper⟩ args
      let markup ← (tag.invoke ⟨escaper, locals⟩ values (.text body)).mapError
        TemplateError.ofTag
      .ok markup.text) := by
  obtain ⟨args', nodes, hargs', hplaceless, hrender, hcompile⟩ :=
    compile_wrap_text hname htag hblock hargs hbody
  have hvalues : Argument.evalList ⟨env, locals, escaper⟩ args' =
      Argument.evalList ⟨env, locals, escaper⟩ args :=
    Argument.evalList_eq_of_readList hargs' hargs hplaceless
  have hcontent : (bodyOf ⟨env, locals, escaper⟩ (some nodes)).resolve =
      (Body.text body).resolve := by
    rw [bodyOf, Body.resolve, hrender]
    rfl
  rw [render_of_compile hcompile, Environment.renderNodes, hescaper]
  dsimp only
  rw [renderNodes_singleton, renderNode_call_invoke, hvalues]
  simp only [Tag.invoke_of_resolve hcontent]

end Wrap

/-- Variables as arguments, and a text without braces as the body: the template adds nothing to the
tag. -/
theorem render_wrap_variables {tag : Tag} {name body : String} {entries : Entries Value}
    (hname : isBlockName name = true) (htag : env.tag? name = some tag)
    (hblock : tag.definition.isBlock = true) (hnames : ∀ e ∈ entries, IsVariable e.1)
    (hnodup : (Entries.names entries).Nodup) (hbody : '\x7b' ∉ body.toList) {escaper : Escaper}
    (hescaper : env.escaper = some escaper) :
    env.render (wrap name (" ".intercalate (Entries.names entries)) body) (.map entries) =
      ((tag.invoke ⟨escaper, .map entries⟩ (entries.map Prod.snd) (.text body)).mapError
        TemplateError.ofTag).map SafeText.text := by
  obtain ⟨args, hread, hvalues⟩ := Argument.exists_readList_variables hnames hnodup
  rw [render_wrap_text hname htag hblock hread hbody hescaper, hvalues]
  show ((tag.invoke _ _ _).mapError _ >>= _) = _
  cases (tag.invoke ⟨escaper, .map entries⟩ (entries.map Prod.snd) (.text body)).mapError
    TemplateError.ofTag <;> rfl

/-! ## Numbered variables -/

/-- The values under the names `a0`, `a1` and so on. -/
def numbered (values : List Value) : Entries Value :=
  values.zipIdx.map fun (v, i) => ("a" ++ toString i, v)

theorem isVariable_numbered (i : Nat) : IsVariable ("a" ++ toString i) := by
  have htext : ("a" ++ toString i).toList = 'a' :: Nat.toDigits 10 i := by
    rw [String.toList_append]
    show ['a'] ++ i.repr.toList = _
    rw [Nat.toList_repr]
    rfl
  have hdigits : ∀ c ∈ Nat.toDigits 10 i, Lexeme.isNameChar c = true := fun c hc =>
    Lexeme.isNameChar_of_isDigit (Nat.isDigit_of_mem_toDigits (by decide) (by decide) hc)
  constructor
  · rw [htext]
    exact Lexeme.name?_of_isNameChar rfl hdigits
  · intro hword
    have hhead : ∀ w ∈ Lexeme.reservedWords, w.toList.head? ≠ some 'a' := by decide
    refine hhead _ hword ?_
    rw [htext]
    rfl

theorem numbered_injective {i j : Nat} (h : "a" ++ toString i = "a" ++ toString j) : i = j := by
  have hdigits : Nat.toDigits 10 i = Nat.toDigits 10 j := by
    rw [← Nat.toList_repr, ← Nat.toList_repr]
    exact congrArg String.toList ((String.append_right_inj "a").mp h)
  rw [← Nat.ofDigitChars_toDigits (by decide) (Nat.le_refl 10) (n := i), hdigits,
    Nat.ofDigitChars_toDigits (by decide) (Nat.le_refl 10)]

theorem nodup_names_numbered (values : List Value) : (Entries.names (numbered values)).Nodup := by
  have hnames : Entries.names (numbered values) =
      (values.zipIdx.map Prod.snd).map fun i => "a" ++ toString i := by
    rw [Entries.names, numbered, List.map_map, List.map_map]
    rfl
  rw [hnames, List.zipIdx_map_snd]
  exact List.Pairwise.map _ (fun i j hne heq => hne (numbered_injective heq)) (List.nodup_range' 1)

theorem map_snd_numbered (values : List Value) : (numbered values).map Prod.snd = values := by
  rw [numbered, List.map_map]
  exact List.zipIdx_map_fst 0 values

/-- A block with the numbered variables as arguments. -/
def numberedBlock (name body : String) (values : List Value) : String :=
  wrap name (" ".intercalate (Entries.names (numbered values))) body

example : numberedBlock "note" "x" [.null, .bool true] =
    "\x7b% note a0 a1 %\x7dx\x7b% endnote %\x7d" := by
  decide +kernel

/-- A block tag that is given values by a template and a text without braces as its body: it succeeds
exactly if it succeeds when it is invoked on these values and this text, with the same text, and a
refused argument is the same as well. -/
theorem renderWithTags_iff_invoke {d : TagDefinition} (hname : isBlockName d.name.text = true)
    (hblock : d.isBlock = true) (own : Option Escaper) (values : List Value) {body : String}
    (hbody : '\x7b' ∉ body.toList) (context : Value) :
    (∀ text,
      renderWithTags [Tag.ofDefinition d own] (numberedBlock d.name.text body values)
          (.map (numbered values)) = .ok text ↔
        (Tag.ofDefinition d own).invoke ⟨.html, context⟩ values (.text body) = .ok ⟨text⟩) ∧
      ∀ cause,
        (Tag.ofDefinition d own).invoke ⟨.html, context⟩ values (.text body) =
            .error (.invalidArgument cause) →
          renderWithTags [Tag.ofDefinition d own] (numberedBlock d.name.text body values)
              (.map (numbered values)) = .error (.tag (.invalidArgument cause)) := by
  have hrender : renderWithTags [Tag.ofDefinition d own] (numberedBlock d.name.text body values)
        (.map (numbered values)) =
      (((Tag.ofDefinition d own).invoke ⟨.html, .map (numbered values)⟩
        ((numbered values).map Prod.snd) (.text body)).mapError TemplateError.ofTag).map
          SafeText.text := by
    have htag : (Environment.standard.addTag (Tag.ofDefinition d own)).tag? d.name.text =
        some (Tag.ofDefinition d own) :=
      Entries.get?_insert_self ..
    refine render_wrap_variables hname htag hblock ?_ (nodup_names_numbered values) hbody rfl
    intro e he
    obtain ⟨⟨v, i⟩, -, rfl⟩ := List.mem_map.mp he
    exact isVariable_numbered i
  -- the tag writes its element, so it does not look at the variables
  have hcontext : (Tag.ofDefinition d own).invoke ⟨.html, .map (numbered values)⟩ values
        (.text body) =
      (Tag.ofDefinition d own).invoke ⟨.html, context⟩ values (.text body) :=
    rfl
  rw [hrender, map_snd_numbered, hcontext]
  cases (Tag.ofDefinition d own).invoke ⟨.html, context⟩ values (.text body) with
  | ok markup =>
    refine ⟨fun text => ⟨fun h => ?_, fun h => ?_⟩, fun cause h => by cases h⟩
    · cases h
      rfl
    · cases h
      rfl
  | error e =>
    refine ⟨fun text => ⟨fun h => (by cases h), fun h => (by cases h)⟩, fun cause h => ?_⟩
    cases h
    rfl

/-- A block tag that is written as another element. -/
def noteDefinition : TagDefinition :=
  ⟨⟨"note", by decide⟩, ⟨"p", by decide⟩, true⟩

/-- A flag, a list with markup in it, nothing, and a map. -/
def noteValues : List Value :=
  [.text "a<b", .list [.text "c", .safe ⟨"<d>"⟩], .null, .map [("k", .text "it's")]]

/-- Escaped once on both paths, and refused on both. -/
theorem renderWithTags_note :
    renderWithTags [Tag.ofDefinition noteDefinition none]
          (numberedBlock "note" "%\x7d <x>" noteValues) (.map (numbered noteValues)) =
        .ok "<p a&lt;b c <d> k=\"it&#39;s\">%\x7d <x></p>" ∧
      renderWithTags [Tag.ofDefinition noteDefinition none]
          (numberedBlock "note" "" [.list [.list []]]) (.map (numbered [.list [.list []]])) =
        .error (.tag (.invalidArgument (.nested .list))) := by
  have hbody : '\x7b' ∉ "%\x7d <x>".toList := by decide
  have hempty : '\x7b' ∉ "".toList := by decide
  constructor
  · exact ((renderWithTags_iff_invoke (d := noteDefinition) (by decide) rfl none noteValues hbody
      .null).1 _).mpr rfl
  · exact (renderWithTags_iff_invoke (d := noteDefinition) (by decide) rfl none [.list [.list []]]
      hempty .null).2 _ rfl

end Template

end TagTemplate
