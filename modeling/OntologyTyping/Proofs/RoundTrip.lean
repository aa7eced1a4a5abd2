import OntologyTyping.Pattern.Json
import Mathlib.Data.List.DropRight

/-!
Patterns that JSON keeps.

A type reference is written as one text, in which variables are told from labels by a dollar sign in front and
blanks at the ends do not count; a variable name loses one dollar sign when it is read. So a pattern that is written
as a JSON value is read as the same pattern exactly when no name or label in it can be taken for something else.
-/

namespace OntologyTyping

/-! ### Texts -/

namespace Text

theorem dropWhile_isBlank_eq_self_iff {cs : List Char} :
    cs.dropWhile isBlank = cs ↔ cs.head?.any isBlank = false := by
  cases cs with
  | nil => simp
  | cons c rest => simp [List.dropWhile_eq_self_iff]

theorem rdropWhile_isBlank_eq_self_iff {cs : List Char} :
    cs.rdropWhile isBlank = cs ↔ cs.getLast?.any isBlank = false := by
  rw [List.rdropWhile_eq_self_iff]
  cases cs with
  | nil => simp
  | cons c rest => simp [List.getLast?_eq_some_getLast]

/-- Trimming leaves a text alone exactly when neither end is blank. -/
theorem trimChars_eq_self_iff {cs : List Char} :
    trimChars cs = cs ↔ cs.head?.any isBlank = false ∧ cs.getLast?.any isBlank = false := by
  have htrim : trimChars cs = (cs.dropWhile isBlank).rdropWhile isBlank := rfl
  rw [← dropWhile_isBlank_eq_self_iff, ← rdropWhile_isBlank_eq_self_iff, htrim]
  constructor
  · intro h
    -- Each of the two steps only shortens the text, so neither of them has dropped anything.
    have hsuffix : cs.dropWhile isBlank <:+ cs := List.dropWhile_suffix isBlank
    have hprefix : cs <+: cs.dropWhile isBlank := by
      have hpre := List.rdropWhile_prefix isBlank (cs.dropWhile isBlank)
      rwa [h] at hpre
    have hfront : cs.dropWhile isBlank = cs :=
      hsuffix.eq_of_length (Nat.le_antisymm hsuffix.length_le hprefix.length_le)
    rw [hfront] at h
    exact ⟨hfront, h⟩
  · rintro ⟨hfront, hback⟩
    rw [hfront, hback]

theorem trimChars_cons {c : Char} (hc : isBlank c = false) (cs : List Char) :
    trimChars (c :: cs) = c :: cs.rdropWhile isBlank := by
  have hkept : (c :: cs).dropWhile isBlank = c :: cs := List.dropWhile_cons_of_neg (by simp [hc])
  rw [trimChars, hkept, List.reverse_cons, List.dropWhile_append, List.rdropWhile]
  split
  · rename_i hempty
    simp [List.isEmpty_iff.mp hempty, hc]
  · simp

end Text

/-! ### Names and type references -/

/-- The name has no dollar sign in front. -/
def VarName.Plain (v : VarName) : Prop :=
  v.text.toList.head? ≠ some '$'

instance : DecidablePred VarName.Plain := fun v => inferInstanceAs (Decidable (v.text.toList.head? ≠ some '$'))

theorem VarName.length_ofText_le (s : String) : (ofText s).text.toList.length ≤ s.toList.length := by
  unfold ofText
  split
  · rename_i rest hs
    simp [hs]
  · exact Nat.le_refl _

theorem VarName.ofText_text_iff {v : VarName} : ofText v.text = v ↔ v.Plain := by
  unfold Plain
  constructor
  · intro h hhead
    -- Without its dollar sign the name would be shorter.
    obtain ⟨rest, hrest⟩ := List.head?_eq_some_iff.mp hhead
    have hlength := congrArg (fun w : VarName => w.text.toList.length) h
    simp [ofText, hrest] at hlength
  · intro hhead
    unfold ofText
    split
    · rename_i rest hrest
      exact absurd (by rw [hrest]; rfl) hhead
    · rfl

namespace TypeRef

/-- A label that is not empty, is not blank at either end and has no dollar sign in front, or a variable whose name
is not empty, has no further dollar sign in front and is not blank at its end. -/
def Readable : TypeRef → Prop
  | .label l => l.text ≠ "" ∧ l.text.toList.head?.any Text.isBlank = false ∧
      l.text.toList.getLast?.any Text.isBlank = false ∧ l.text.toList.head? ≠ some '$'
  | .var v => v.text ≠ "" ∧ v.Plain ∧ v.text.toList.getLast?.any Text.isBlank = false

instance : DecidablePred Readable
  | .label l => inferInstanceAs (Decidable (l.text ≠ "" ∧ l.text.toList.head?.any Text.isBlank = false ∧
      l.text.toList.getLast?.any Text.isBlank = false ∧ l.text.toList.head? ≠ some '$'))
  | .var v => inferInstanceAs (Decidable (v.text ≠ "" ∧ v.Plain ∧ v.text.toList.getLast?.any Text.isBlank = false))

theorem parse?_eq_label_iff {s : String} {l : Label} :
    parse? s = some (.label l) ↔
      Text.trimChars s.toList ≠ [] ∧ (Text.trimChars s.toList).head? ≠ some '$' ∧
        Text.trimChars s.toList = l.text.toList := by
  unfold parse?
  split
  · rename_i h
    simp [h]
  · rename_i h
    simp [h]
  · rename_i rest _ h
    simp [h]
  · rename_i hnil _ hdollar
    have hhead : (Text.trimChars s.toList).head? ≠ some '$' := by
      intro hhead
      obtain ⟨rest, hrest⟩ := List.head?_eq_some_iff.mp hhead
      exact hdollar rest hrest
    have heq : some (TypeRef.label ⟨.ofList (Text.trimChars s.toList)⟩) = some (.label l) ↔
        Text.trimChars s.toList = l.text.toList := by
      rw [Option.some.injEq, TypeRef.label.injEq]
      constructor
      · rintro rfl
        simp
      · intro h
        rw [h, String.ofList_toList]
    rw [heq]
    exact ⟨fun h => ⟨hnil, hhead, h⟩, fun h => h.2.2⟩

theorem parse?_dollar (cs : List Char) :
    parse? (.ofList ('$' :: cs)) =
      if cs.rdropWhile Text.isBlank = [] then none
      else some (.var (.ofText (.ofList (cs.rdropWhile Text.isBlank)))) := by
  unfold parse?
  rw [String.toList_ofList, Text.trimChars_cons (by decide)]
  split
  · simp_all
  · simp_all
  · simp_all
  · simp_all

theorem parse?_render_iff {t : TypeRef} : parse? t.render = some t ↔ t.Readable := by
  cases t with
  | label l =>
    have hempty : l.text = "" ↔ l.text.toList = [] := String.toList_eq_nil_iff.symm
    simp only [render, parse?_eq_label_iff, Readable, ne_eq, hempty]
    constructor
    · rintro ⟨hne, hhead, htrim⟩
      rw [htrim] at hne hhead
      have hends := Text.trimChars_eq_self_iff.mp htrim
      exact ⟨hne, hends.1, hends.2, hhead⟩
    · rintro ⟨hne, hfront, hback, hhead⟩
      have htrim := Text.trimChars_eq_self_iff.mpr ⟨hfront, hback⟩
      rw [htrim]
      exact ⟨hne, hhead, rfl⟩
  | var v =>
    have hempty : v.text = "" ↔ v.text.toList = [] := String.toList_eq_nil_iff.symm
    have hrender : (TypeRef.var v).render = .ofList ('$' :: v.text.toList) := by
      rw [String.ofList_cons, String.ofList_toList]
      rfl
    simp only [hrender, parse?_dollar, Readable, ne_eq, hempty, ← Text.rdropWhile_isBlank_eq_self_iff]
    constructor
    · intro h
      split at h
      · exact absurd h (by simp)
      · rename_i hne
        have hread : VarName.ofText (.ofList (v.text.toList.rdropWhile Text.isBlank)) = v := by simpa using h
        -- Reading and trimming only shorten a name, so a name that comes back has lost nothing on the way.
        have hprefix := List.rdropWhile_prefix Text.isBlank v.text.toList
        have hlength := VarName.length_ofText_le (.ofList (v.text.toList.rdropWhile Text.isBlank))
        rw [hread, String.toList_ofList] at hlength
        have hkept := hprefix.eq_of_length (Nat.le_antisymm hprefix.length_le hlength)
        rw [hkept, String.ofList_toList] at hread
        rw [hkept] at hne
        exact ⟨hne, VarName.ofText_text_iff.mp hread, hkept⟩
    · rintro ⟨hne, hplain, hkept⟩
      rw [hkept, if_neg hne, String.ofList_toList, VarName.ofText_text_iff.mpr hplain]

theorem ofJson_render_iff {t : TypeRef} : ofJson (.str t.render) = .ok t ↔ t.Readable := by
  rw [← parse?_render_iff]
  cases h : parse? t.render with
  | none => simp [ofJson, Json.asText, h, bind, Except.bind, throw, throwThe, MonadExceptOf.throw]
  | some u => simp [ofJson, Json.asText, h, bind, Except.bind, pure, Except.pure]

end TypeRef

theorem VarName.ofJson_text_iff {v : VarName} : ofJson (.str v.text) = .ok v ↔ v.Plain := by
  rw [← ofText_text_iff]
  simp [ofJson, Json.asText, Except.map]

/-! ### Reading in sequence -/

section Sequence

variable {ε α β γ : Type}

theorem map_eq_ok_iff_of_injective {x : Except ε α} {f : α → β} (hf : Function.Injective f) {a : α} :
    x.map f = .ok (f a) ↔ x = .ok a := by
  cases x with
  | error e => simp [Except.map]
  | ok b => simp [Except.map, hf.eq_iff]

theorem bind_pair_eq_ok_iff {x : Except ε α} {y : Except ε β} {f : α → β → γ} (hf : Function.Injective2 f)
    {a : α} {b : β} :
    (do let a ← x; let b ← y; return f a b) = .ok (f a b) ↔ x = .ok a ∧ y = .ok b := by
  cases x with
  | error e => simp [bind, Except.bind]
  | ok a' =>
    cases y with
    | error e => simp [bind, Except.bind]
    | ok b' => simp [bind, Except.bind, pure, Except.pure, hf.eq_iff]

/-- A list comes back exactly when each of its items does. -/
theorem mapM_map_eq_ok_iff {enc : α → β} {dec : β → Except ε α} {xs : List α} :
    (xs.map enc).mapM dec = .ok xs ↔ ∀ x ∈ xs, dec (enc x) = .ok x := by
  induction xs with
  | nil => simp [pure, Except.pure]
  | cons x xs ih =>
    have hcons : Function.Injective2 (List.cons (α := α)) := fun _ _ _ _ h => List.cons.inj h
    rw [List.map_cons, List.mapM_cons, bind_pair_eq_ok_iff hcons, ih, List.forall_mem_cons]

end Sequence

/-! ### Records -/

/-- A record of two fields, written in their order, is read by reading one field after the other. -/
theorem Json.Record.ofEntries_pair {σ α β : Type} (r : Json.Record σ) (empty : σ) {f g : Json.Field σ}
    (hr : r.fields = [f, g]) (hne : f.name ≠ g.name)
    (dec : Json → Except ShapeError α) (set : σ → α → σ) (hf : ∀ d j, f.read d j = set d <$> dec j)
    (dec' : Json → Except ShapeError β) (set' : σ → β → σ) (hg : ∀ d j, g.read d j = set' d <$> dec' j)
    (hfirst : f.isSet empty = false) (hnext : ∀ a, g.isSet (set empty a) = false)
    (hset : ∀ a b, f.isSet (set' (set empty a) b) = true ∧ g.isSet (set' (set empty a) b) = true) (i j : Json) :
    r.ofEntries empty [(f.name, i), (g.name, j)] = do
      let a ← dec i
      let b ← dec' j
      return set' (set empty a) b := by
  have hfindf : r.fields.find? (·.name == f.name) = some f := by simp [hr]
  have hfindg : r.fields.find? (·.name == g.name) = some g := by simp [hr, hne]
  have hmissing (a : α) (b : β) : missing? r.fields (set' (set empty a) b) = none := by simp [missing?, hr, hset]
  cases hi : dec i with
  | error e => simp [ofEntries, readEntries, hfindf, hf, hfirst, hi, bind, Except.bind]
  | ok a =>
    cases hj : dec' j with
    | error e =>
      simp [ofEntries, readEntries, hfindf, hfindg, hf, hg, hfirst, hnext, hi, hj, bind, Except.bind]
    | ok b =>
      simp [ofEntries, readEntries, hfindf, hfindg, hf, hg, hfirst, hnext, hi, hj, hmissing, bind, Except.bind, pure,
        Except.pure]

theorem RolePlayer.ofJson_obj (i j : Json) :
    ofJson (.obj [("role", i), ("player", j)]) = do
      let role ← i.asOptional TypeRef.ofJson
      let player ← VarName.ofJson j
      return ⟨role, player⟩ := by
  have hread := record.ofEntries_pair {} rfl (by decide) (·.asOptional TypeRef.ofJson)
    (fun d t => { d with role := some t }) (fun _ _ => rfl) VarName.ofJson (fun d v => { d with player := some v })
    (fun _ _ => rfl) rfl (fun _ => rfl) (fun _ _ => ⟨rfl, rfl⟩) i j
  rw [ofJson, Json.Record.read, hread]
  simp only [bind_assoc, pure_bind, Option.getD_some]

theorem Property.hasOfJson_obj (i j : Json) :
    hasOfJson (.obj [("attribute", i), ("value", j)]) = do
      let attr ← Label.ofJson i
      let value ← Literal.ofJson j
      return .has attr value := by
  have hread := hasRecord.ofEntries_pair {} rfl (by decide) Label.ofJson (fun d l => { d with attr := some l })
    (fun _ _ => rfl) Literal.ofJson (fun d v => { d with value := some v }) (fun _ _ => rfl) rfl (fun _ => rfl)
    (fun _ _ => ⟨rfl, rfl⟩) i j
  rw [hasOfJson, hread]
  simp only [bind_assoc, pure_bind, Option.getD_some]

theorem Atom.ofJson_obj (i j : Json) :
    ofJson (.obj [("name", i), ("properties", j)]) = do
      let name ← VarName.ofJson i
      let properties ← j.asList Property.ofJson
      return ⟨name, properties⟩ := by
  have hread := record.ofEntries_pair {} rfl (by decide) VarName.ofJson (fun d v => { d with name := some v })
    (fun _ _ => rfl) (·.asList Property.ofJson) (fun d qs => { d with properties := some qs }) (fun _ _ => rfl) rfl
    (fun _ => rfl) (fun _ _ => ⟨rfl, rfl⟩) i j
  rw [ofJson, Json.Record.read, hread]
  simp only [bind_assoc, pure_bind, Option.getD_some]

/-! ### Atoms -/

theorem Literal.ofJson_toJson (v : Literal) : ofJson v.toJson = .ok v := by
  cases v with
  | bool b => rfl
  | int i =>
    have hfits : Literal.fitsInt i.toInt = true := by
      have hlow := i.le_toInt
      have hhigh := i.toInt_lt
      simp only [Literal.fitsInt, Bool.and_eq_true, decide_eq_true_eq]
      exact ⟨hlow, hhigh⟩
    simp [toJson, ofJson, hfits]
  | float d => rfl
  | str s => rfl

theorem RolePlayer.ofJson_toJson_iff {p : RolePlayer} :
    ofJson p.toJson = .ok p ↔ (∀ t ∈ p.role, t.Readable) ∧ p.player.Plain := by
  have hinj : Function.Injective2 RolePlayer.mk := fun _ _ _ _ h => RolePlayer.mk.inj h
  have hrole : (Json.strOrNull (p.role.map TypeRef.render)).asOptional TypeRef.ofJson = .ok p.role ↔
      ∀ t ∈ p.role, t.Readable := by
    cases p.role with
    | none => simp [Json.strOrNull, Json.asOptional]
    | some t =>
      have hsome : Function.Injective (some : TypeRef → Option TypeRef) := fun _ _ h => Option.some.inj h
      simp [Json.strOrNull, Json.asOptional, map_eq_ok_iff_of_injective hsome, TypeRef.ofJson_render_iff]
  rw [toJson, ofJson_obj, bind_pair_eq_ok_iff hinj, hrole, VarName.ofJson_text_iff]

namespace Property

/-- What stands for a type in a property. -/
def typeRefs : Property → List TypeRef
  | .isa t | .sub t | .plays t | .relates t => [t]
  | .relation players => players.filterMap RolePlayer.role
  | .label _ | .has _ _ => []

def players : Property → List VarName
  | .relation players => players.map RolePlayer.player
  | _ => []

def Readable (q : Property) : Prop :=
  (∀ t ∈ q.typeRefs, t.Readable) ∧ ∀ v ∈ q.players, v.Plain

instance : DecidablePred Readable := fun q =>
  inferInstanceAs (Decidable ((∀ t ∈ q.typeRefs, t.Readable) ∧ ∀ v ∈ q.players, v.Plain))

theorem map_ofJson_render_iff {f : TypeRef → Property} (hf : Function.Injective f) {t : TypeRef} :
    (TypeRef.ofJson (.str t.render)).map f = .ok (f t) ↔ t.Readable := by
  rw [map_eq_ok_iff_of_injective hf, TypeRef.ofJson_render_iff]

theorem ofJson_toJson_iff {q : Property} : ofJson q.toJson = .ok q ↔ q.Readable := by
  cases q with
  | isa t => simp [toJson, ofJson, ofContent, Readable, typeRefs, players, map_ofJson_render_iff fun _ _ => isa.inj]
  | sub t => simp [toJson, ofJson, ofContent, Readable, typeRefs, players, map_ofJson_render_iff fun _ _ => sub.inj]
  | label l => simp [toJson, ofJson, ofContent, Readable, typeRefs, players, Label.ofJson, Json.asText, Except.map]
  | plays t => simp [toJson, ofJson, ofContent, Readable, typeRefs, players, map_ofJson_render_iff fun _ _ => plays.inj]
  | relates t =>
    simp [toJson, ofJson, ofContent, Readable, typeRefs, players, map_ofJson_render_iff fun _ _ => relates.inj]
  | relation ps =>
    have hlist : (Json.arr (ps.map RolePlayer.toJson)).asList RolePlayer.ofJson = .ok ps ↔
        ∀ p ∈ ps, (∀ t ∈ p.role, t.Readable) ∧ p.player.Plain := by
      simp only [Json.asList, mapM_map_eq_ok_iff, RolePlayer.ofJson_toJson_iff]
    have hinj : Function.Injective relation := fun _ _ => relation.inj
    simp only [toJson, ofJson, ofContent, map_eq_ok_iff_of_injective hinj, hlist, Readable, typeRefs, players,
      List.mem_filterMap, List.mem_map]
    constructor
    · intro h
      refine ⟨?_, ?_⟩
      · rintro t ⟨p, hp, ht⟩
        exact (h p hp).1 t ht
      · rintro v ⟨p, hp, rfl⟩
        exact (h p hp).2
    · rintro ⟨hroles, hplayers⟩ p hp
      exact ⟨fun t ht => hroles t ⟨p, hp, ht⟩, hplayers p.player ⟨p, hp, rfl⟩⟩
  | has a v =>
    simp [toJson, ofJson, ofContent, Readable, typeRefs, players, hasOfJson_obj, Literal.ofJson_toJson, Label.ofJson,
      Json.asText, Except.map, bind, Except.bind, pure, Except.pure]

end Property

/-- The atom's own name is plain and every property readable. -/
def Atom.Readable (a : Atom) : Prop :=
  a.name.Plain ∧ ∀ q ∈ a.properties, q.Readable

instance : DecidablePred Atom.Readable := fun a =>
  inferInstanceAs (Decidable (a.name.Plain ∧ ∀ q ∈ a.properties, q.Readable))

theorem Atom.ofJson_toJson_iff {a : Atom} : ofJson a.toJson = .ok a ↔ a.Readable := by
  have hinj : Function.Injective2 Atom.mk := fun _ _ _ _ h => Atom.mk.inj h
  rw [toJson, ofJson_obj, bind_pair_eq_ok_iff hinj, VarName.ofJson_text_iff, Json.asList, mapM_map_eq_ok_iff]
  simp only [Property.ofJson_toJson_iff, Readable]

/-! ### Patterns -/

namespace Pattern

mutual

theorem ofJson_toJson_iff : ∀ p : Pattern, ofJson p.toJson = .ok p ↔ ∀ a ∈ p.atoms, a.Readable
  | .atom a => by
    have hinj : Function.Injective Pattern.atom := fun _ _ h => Pattern.atom.inj h
    simp [toJson, ofJson, atoms, map_eq_ok_iff_of_injective hinj, Atom.ofJson_toJson_iff]
  | .all parts => by
    have hinj : Function.Injective Pattern.all := fun _ _ h => Pattern.all.inj h
    simp [toJson, ofJson, atoms, map_eq_ok_iff_of_injective hinj, ofJsonList_toJsonList_iff parts]
  | .any parts => by
    have hinj : Function.Injective Pattern.any := fun _ _ h => Pattern.any.inj h
    simp [toJson, ofJson, atoms, map_eq_ok_iff_of_injective hinj, ofJsonList_toJsonList_iff parts]

theorem ofJsonList_toJsonList_iff :
    ∀ ps : List Pattern, ofJsonList (toJsonList ps) = .ok ps ↔ ∀ a ∈ atomsOf ps, a.Readable
  | [] => by simp [toJsonList, ofJsonList, atomsOf]
  | p :: rest => by
    have hinj : Function.Injective2 (List.cons (α := Pattern)) := fun _ _ _ _ h => List.cons.inj h
    rw [toJsonList, ofJsonList, bind_pair_eq_ok_iff hinj, ofJson_toJson_iff p, ofJsonList_toJsonList_iff rest, atomsOf,
      List.forall_mem_append]

end

/-- A pattern comes back from JSON as it went exactly when no atom and no player has a name with a dollar sign in
front, every label that stands for a type has something in it, no blank at either end and no dollar sign in front,
and every variable that stands for a type has a name with something in it, no dollar sign in front and no blank at
its end. -/
theorem ofJson_toJson_eq_ok_iff (p : Pattern) :
    ofJson p.toJson = .ok p ↔
      (∀ a ∈ p.atoms, a.name.Plain ∧ ∀ q ∈ a.properties, ∀ v ∈ q.players, v.Plain) ∧
      (∀ a ∈ p.atoms, ∀ q ∈ a.properties, ∀ l, .label l ∈ q.typeRefs →
        l.text ≠ "" ∧ l.text.toList.head?.any Text.isBlank = false ∧
          l.text.toList.getLast?.any Text.isBlank = false ∧ l.text.toList.head? ≠ some '$') ∧
      (∀ a ∈ p.atoms, ∀ q ∈ a.properties, ∀ v, .var v ∈ q.typeRefs →
        v.text ≠ "" ∧ v.text.toList.head? ≠ some '$' ∧ v.text.toList.getLast?.any Text.isBlank = false) := by
  rw [ofJson_toJson_iff]
  constructor
  · intro h
    refine ⟨?_, ?_, ?_⟩
    · intro a ha
      exact ⟨(h a ha).1, fun q hq => ((h a ha).2 q hq).2⟩
    · intro a ha q hq l hl
      exact ((h a ha).2 q hq).1 (.label l) hl
    · intro a ha q hq v hv
      exact ((h a ha).2 q hq).1 (.var v) hv
  · rintro ⟨hnames, hlabels, hvars⟩ a ha
    refine ⟨(hnames a ha).1, fun q hq => ⟨?_, (hnames a ha).2 q hq⟩⟩
    intro t ht
    cases t with
    | label l => exact hlabels a ha q hq l ht
    | var v => exact hvars a ha q hq v ht

end Pattern

end OntologyTyping
