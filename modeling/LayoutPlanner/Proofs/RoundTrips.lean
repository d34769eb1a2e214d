import Mathlib.Data.List.Forall2
import LayoutPlanner.Planning.Config
import LayoutPlanner.Proofs.JsonTexts
import LayoutPlanner.Proofs.Yields
import LayoutPlanner.Tensor.Document

/-!
# Round trips of documents

Layouts and configurations survive being written and read.  `Document.Kept value` says that the
value is written as a plain JSON value which is read as that value; together with the reader of
texts this gives the round trip of the text, and with it that no two values share a text.  The
lemmas follow the nesting of the documents: words, dimensions, shapes, paddings, layouts.

The numbers of a document are sizes.  `Sized` says so for each type that holds numbers.
-/

namespace LayoutPlanner

namespace Document

variable {α : Type} [Document α]

/-- The written value holds nothing but plain JSON and is read as the value it came from. -/
structure Kept (value : α) : Prop where
  plain : (toJson value).Plain
  read : ofJson? (toJson value) = some value

theorem Kept.read?_write {value : α} (h : Kept value) : read? (write value) = some value := by
  rw [read?, write, h.plain.parse?_compact, Option.bind_some, h.read]

theorem Kept.eq_of_write_eq {a b : α} (ha : Kept a) (hb : Kept b) (h : write a = write b) :
    a = b := by
  have hread := ha.read?_write
  rw [h, hb.read?_write] at hread
  exact (Option.some.inj hread).symm

end Document

namespace Json

theorem plain_object {members : List (String × Json)} (h : ∀ member ∈ members, member.2.Plain) :
    (Json.object members).Plain := by
  refine .record fun member hmember => ?_
  obtain ⟨⟨key, value⟩, hsource, rfl⟩ := List.mem_map.1 hmember
  exact h _ hsource

theorem plain_ofString (text : String) : (Json.ofString text).Plain :=
  .text (some text)

/-- Of different keys, at most one is the name. -/
theorem filter_key_eq {members : List (String × Json)} (h : (members.map Prod.fst).Nodup)
    (name : String) :
    (members.map fun (key, value) => (some key, value)).filter (fun (key, _) => key == some name) =
      ((members.lookup name).map fun value => (some name, value)).toList := by
  induction members with
  | nil => rfl
  | cons member members ih =>
    obtain ⟨key, value⟩ := member
    rw [List.map_cons, List.nodup_cons] at h
    by_cases hkey : key = name
    · subst hkey
      have hrest : members.lookup key = none := by
        rw [List.lookup_eq_none_iff]
        rintro ⟨other, _⟩ hother
        simp only [bne_iff_ne, ne_eq]
        rintro rfl
        exact h.1 (List.mem_map.2 ⟨_, hother, rfl⟩)
      simp [ih h.2, hrest]
    · have hname : (name == key) = false := by simp [Ne.symm hkey]
      simp [List.lookup_cons, ih h.2, hkey, hname]

/-- A record whose keys are all different has its members as fields. -/
theorem fields?_object {members : List (String × Json)} (h : (members.map Prod.fst).Nodup)
    (names : List String) :
    (Json.object members).fields? names = some (names.map fun name => members.lookup name) := by
  rw [object, fields?, if_pos (by simp)]
  refine mapM_eq_some_iff.2 ?_
  rw [List.forall₂_map_right_iff]
  refine List.forall₂_same.2 fun name _ => ?_
  rw [field?, filter_key_eq h]
  cases members.lookup name <;> rfl

/-- A list is read item by item. -/
theorem asListOf?_map {α : Type} {toJson : α → Json} {ofJson? : Json → Option α} {values : List α}
    (h : ∀ value ∈ values, ofJson? (toJson value) = some value) :
    (Json.list (values.map toJson)).asListOf? ofJson? = some values := by
  refine mapM_eq_some_iff.2 ?_
  rw [List.forall₂_map_left_iff]
  exact List.forall₂_same.2 h

theorem asSize?_nat {n : Nat} (h : n < Size.limit) : (Json.nat n).asSize? = some n := by
  simp [asSize?, asNatBelow?, h]

theorem plain_sizes {sizes : List Nat} (h : ∀ n ∈ sizes, n < Size.limit) :
    (Json.list (sizes.map .nat)).Plain := by
  refine .list fun item hitem => ?_
  obtain ⟨n, hn, rfl⟩ := List.mem_map.1 hitem
  exact .nat (h n hn)

end Json

/-! ## Words -/

/-- Every value is listed, and no two values share a word. -/
class LawfulVocabulary (α : Type) [Vocabulary α] : Prop where
  ofWord?_word : ∀ a : α, Vocabulary.ofWord? (Vocabulary.word a) = some a

instance : LawfulVocabulary ElementType where
  ofWord?_word dtype := by cases dtype <;> decide

instance : LawfulVocabulary Format where
  ofWord?_word format := by cases format <;> decide

theorem Vocabulary.kept {α : Type} [Vocabulary α] [LawfulVocabulary α] (a : α) :
    Document.Kept a where
  plain := .text _
  read := LawfulVocabulary.ofWord?_word a

/-! ## Layouts -/

/-- The extent, where it is known, is a size. -/
def Dimension.Sized (dimension : Dimension) : Prop :=
  ∀ extent ∈ dimension.extent?, extent < Size.limit

def Padding.Sized (padding : Padding) : Prop :=
  (∀ amount ∈ padding.lower, amount < Size.limit) ∧ ∀ amount ∈ padding.upper, amount < Size.limit

def Layout.Sized (layout : Layout) : Prop :=
  (∀ dimension ∈ layout.shape.dims, dimension.Sized) ∧ layout.padding.Sized

instance (dimension : Dimension) : Decidable dimension.Sized :=
  inferInstanceAs (Decidable (∀ extent ∈ dimension.extent?, extent < Size.limit))

instance (padding : Padding) : Decidable padding.Sized :=
  inferInstanceAs (Decidable (_ ∧ _))

instance (layout : Layout) : Decidable layout.Sized :=
  inferInstanceAs (Decidable (_ ∧ _))

theorem Dimension.Sized.kept {dimension : Dimension} (h : dimension.Sized) :
    Document.Kept dimension := by
  cases dimension with
  | static extent =>
    have hextent : extent < Size.limit := h extent rfl
    refine ⟨Json.plain_object ?_, ?_⟩
    · simpa using Json.Plain.nat hextent
    · simp [Document.ofJson?, Document.toJson, Json.object, Json.asSize?_nat hextent]
  | dynamic symbol =>
    refine ⟨Json.plain_object ?_, ?_⟩
    · simpa using Json.plain_ofString symbol
    · simp [Document.ofJson?, Document.toJson, Json.object, Json.ofString, Json.asText?]

theorem Shape.kept {shape : Shape} (h : ∀ dimension ∈ shape.dims, dimension.Sized) :
    Document.Kept shape where
  plain := by
    refine Json.plain_object ?_
    simp only [List.mem_singleton, forall_eq]
    refine .list fun item hitem => ?_
    obtain ⟨dimension, hdimension, rfl⟩ := List.mem_map.1 hitem
    exact (h dimension hdimension).kept.plain
  read := by
    have hdims := Json.asListOf?_map fun dimension hdimension => (h dimension hdimension).kept.read
    refine Option.bind_eq_some_iff.2 ⟨[some _], Json.fields?_object (by simp) _, ?_⟩
    exact Option.bind_eq_some_iff.2 ⟨_, hdims, rfl⟩

theorem Padding.Sized.kept {padding : Padding} (h : padding.Sized) : Document.Kept padding where
  plain := by
    refine Json.plain_object ?_
    simpa using ⟨Json.plain_sizes h.1, Json.plain_sizes h.2⟩
  read := by
    have hlower := Json.asListOf?_map fun amount hamount => Json.asSize?_nat (h.1 amount hamount)
    have hupper := Json.asListOf?_map fun amount hamount => Json.asSize?_nat (h.2 amount hamount)
    refine Option.bind_eq_some_iff.2 ⟨[some _, some _], Json.fields?_object (by simp) _, ?_⟩
    exact Option.bind_eq_some_iff.2 ⟨_, hlower, Option.bind_eq_some_iff.2 ⟨_, hupper, rfl⟩⟩

theorem Padding.eq_of_isZero {padding : Padding} (h : padding.isZero = true) : padding = {} := by
  obtain ⟨lower, upper⟩ := padding
  simp_all [Padding.isZero]

/-- What the four fields of a layout's record say, the last of which may be missing. -/
theorem Layout.Sized.read_of_fields {layout : Layout} (h : layout.Sized) {json : Json}
    {padding : Option Json}
    (hfields : json.fields? ["shape", "dtype", "format", "padding"] =
      some [some (Document.toJson layout.shape), some (Document.toJson layout.dtype),
        some (Document.toJson layout.format), padding])
    (hpadding : padding = none ∧ layout.padding = {} ∨
      padding = some (Document.toJson layout.padding)) :
    Document.ofJson? json = some layout := by
  have hrest : ((Document.ofJson? (Document.toJson layout.shape)).bind fun shape =>
      (Document.ofJson? (Document.toJson layout.dtype)).bind fun dtype =>
      (Document.ofJson? (Document.toJson layout.format)).bind fun format =>
        some { shape, dtype, format, padding := layout.padding }) = some layout := by
    rw [(Shape.kept h.1).read, (Vocabulary.kept layout.dtype).read,
      (Vocabulary.kept layout.format).read]
    rfl
  refine Option.bind_eq_some_iff.2 ⟨_, hfields, ?_⟩
  obtain ⟨rfl, hempty⟩ | rfl := hpadding
  · exact Option.bind_eq_some_iff.2 ⟨layout.padding, congrArg some hempty.symm, hrest⟩
  · exact Option.bind_eq_some_iff.2 ⟨layout.padding, h.2.kept.read, hrest⟩

theorem Layout.Sized.kept {layout : Layout} (h : layout.Sized) : Document.Kept layout := by
  have hshape := (Shape.kept h.1).plain
  have hdtype := (Vocabulary.kept layout.dtype).plain
  have hformat := (Vocabulary.kept layout.format).plain
  by_cases hzero : layout.padding.isZero = true
  · have hempty := Padding.eq_of_isZero hzero
    have hwritten : Document.toJson layout = .object
        [("shape", Document.toJson layout.shape), ("dtype", Document.toJson layout.dtype),
          ("format", Document.toJson layout.format)] :=
      congrArg (fun more => Json.object (_ ++ more)) (if_pos hzero)
    refine ⟨?_, ?_⟩ <;> rw [hwritten]
    · exact Json.plain_object (by simp [hshape, hdtype, hformat])
    · exact h.read_of_fields (Json.fields?_object (by simp) _) (.inl ⟨rfl, hempty⟩)
  · have hwritten : Document.toJson layout = .object
        [("shape", Document.toJson layout.shape), ("dtype", Document.toJson layout.dtype),
          ("format", Document.toJson layout.format), ("padding", Document.toJson layout.padding)] :=
      congrArg (fun more => Json.object (_ ++ more)) (if_neg hzero)
    refine ⟨?_, ?_⟩ <;> rw [hwritten]
    · exact Json.plain_object (by simp [hshape, hdtype, hformat, h.2.kept.plain])
    · exact h.read_of_fields (Json.fields?_object (by simp) _) (.inr rfl)

/-! ## Configurations -/

def Config.Sized (config : Config) : Prop :=
  config.buildThreads < Size.limit

instance (config : Config) : Decidable config.Sized :=
  inferInstanceAs (Decidable (_ < _))

theorem Config.Sized.kept {config : Config} (h : config.Sized) : Document.Kept config where
  plain := by
    refine Json.plain_object ?_
    simp [Json.Plain.bool, Json.Plain.nat h]
  read := by
    refine Option.bind_eq_some_iff.2
      ⟨[some _, some _, some _, some _], Json.fields?_object (by simp) _, ?_⟩
    refine Option.bind_eq_some_iff.2 ⟨config.optimizeLayout, rfl, ?_⟩
    refine Option.bind_eq_some_iff.2 ⟨config.parallelBuild, rfl, ?_⟩
    refine Option.bind_eq_some_iff.2 ⟨config.buildThreads, Json.asSize?_nat h, ?_⟩
    exact Option.bind_eq_some_iff.2 ⟨config.allowVendorDemotion, rfl, rfl⟩

/-! ## Texts -/

/-- A layout and a configuration are read from their text as they were, and no other layout or
configuration has that text. -/
theorem read?_write_of_sized (layout : Layout) (config : Config) (hlayout : layout.Sized)
    (hconfig : config.Sized) :
    Document.read? (Document.write layout) = some layout ∧
      Document.read? (Document.write config) = some config ∧
      (∀ other : Layout, other.Sized → Document.write other = Document.write layout →
        other = layout) ∧
      ∀ other : Config, other.Sized → Document.write other = Document.write config →
        other = config :=
  ⟨hlayout.kept.read?_write, hconfig.kept.read?_write,
    fun _ hother htext => hother.kept.eq_of_write_eq hlayout.kept htext,
    fun _ hother htext => hother.kept.eq_of_write_eq hconfig.kept htext⟩

/-- A layout with the largest extent, a symbol that needs every kind of escape, and a padding with
zeros at the end of its lists. -/
def awkwardLayout : Layout where
  shape := ⟨[.static 0xffffffffffffffff, .static 0, .dynamic "\"n\\\t\x01é😀"]⟩
  dtype := .bf16
  format := .bsFsYxBsv32Fsv16
  padding := ⟨[0, 0], [10, 0xffffffffffffffff, 0]⟩

/-- The same layout with its padding brought into normal form is another value, and has another
text. -/
theorem read?_write_awkwardLayout :
    let config : Config := { buildThreads := 0xffffffffffffffff, parallelBuild := false }
    let normal : Layout := awkwardLayout.withPadding awkwardLayout.padding.normalize
    (awkwardLayout.Sized ∧ normal.Sized ∧ config.Sized) ∧
      Document.read? (Document.write awkwardLayout) = some awkwardLayout ∧
      Document.read? (Document.write config) = some config ∧
      Document.write normal ≠ Document.write awkwardLayout ∧
      Document.write ({} : Config) ≠ Document.write config := by
  intro config normal
  have hlayout : awkwardLayout.Sized := by decide
  have hnormal : normal.Sized := by decide
  have hconfig : config.Sized := by decide
  obtain ⟨hread, hreadConfig, hlayouts, hconfigs⟩ :=
    read?_write_of_sized awkwardLayout config hlayout hconfig
  refine ⟨⟨hlayout, hnormal, hconfig⟩, hread, hreadConfig, fun htext => ?_, fun htext => ?_⟩
  · exact absurd (hlayouts normal hnormal htext) (by decide)
  · exact absurd (hconfigs {} (by decide) htext) (by decide)

end LayoutPlanner
