import ModelRegistry.Proofs.Documents
import ModelRegistry.Proofs.Rereading

/-!
# Written trees read back

In either layout a tree is written as the same tokens with blanks between them. The tokens of a tree
build the document of the tree, wherever a value is due. So what is written of a tree with finite
numbers is, as a text and as a file, the document of that tree with every number as it is read back;
without doubles it is the document of the tree itself.
-/

namespace ModelRegistry.Json

mutual

/-- The tokens that a tree is written with. -/
def tokens : Json → List Token
  | .null => [.null]
  | .bool b => [.bool b]
  | .number n => [.number (.ok n)]
  | .string s => [.string (.ok s)]
  | .array [] => [.openList, .closeList]
  | .array (j :: js) => .openList :: tokens j ++ itemTokens js ++ [.closeList]
  | .object [] => [.openObject, .closeObject]
  | .object ((k, j) :: ms) =>
    .openObject :: .string (.ok k) :: .colon :: tokens j ++ memberTokens ms ++ [.closeObject]

/-- The items after the first, each after a comma. -/
def itemTokens : List Json → List Token
  | [] => []
  | j :: js => .comma :: tokens j ++ itemTokens js

/-- The members after the first, each after a comma. -/
def memberTokens : List (String × Json) → List Token
  | [] => []
  | (k, j) :: ms => .comma :: .string (.ok k) :: .colon :: tokens j ++ memberTokens ms

end

namespace Token

variable {rest : Source} {l : Layout} {depth : Nat}

theorem ofSource_gap (l : Layout) (depth : Nat) (rest : Source) :
    ofSource ((l.gap depth).map some ++ rest) = ofSource rest := by
  have hspaces (n : Nat) :
      ofSource ((List.replicate n ' ').map some ++ rest) = ofSource rest := by
    induction n with
    | zero => rfl
    | succ n ih =>
      rw [List.replicate_succ, List.map_cons, List.cons_append, ofSource_blank rfl, ih]
  cases l with
  | compact => rfl
  | pretty => rw [Layout.gap, List.map_cons, List.cons_append, ofSource_blank rfl, hspaces]

theorem ofSource_colon (l : Layout) (rest : Source) :
    ofSource (l.colon.map some ++ rest) = .colon :: ofSource rest := by
  cases l with
  | compact => exact ofSource_token rfl
  | pretty => exact (ofSource_token rfl).trans (congrArg _ (ofSource_blank rfl))

theorem endsNumber_gap (l : Layout) (depth : Nat) (h : Numeral.EndsNumber rest) :
    Numeral.EndsNumber ((l.gap depth).map some ++ rest) := by
  cases l with
  | compact => exact h
  | pretty => exact ⟨rfl, by decide⟩

theorem endsNumber_writeItems (js : List Json) (h : Numeral.EndsNumber rest) :
    Numeral.EndsNumber ((writeItems l depth js).map some ++ rest) := by
  cases js with
  | nil => exact h
  | cons => exact ⟨rfl, by decide⟩

theorem endsNumber_writeMembers (ms : List (String × Json)) (h : Numeral.EndsNumber rest) :
    Numeral.EndsNumber ((writeMembers l depth ms).map some ++ rest) := by
  cases ms with
  | nil => exact h
  | cons => exact ⟨rfl, by decide⟩

/-- The tree is cut off as its tokens, its numbers as they are read back, wherever it stands and if
nothing goes on with its last number. -/
def Spells (l : Layout) (j : Json) : Prop :=
  ∀ depth rest, Numeral.EndsNumber rest →
    ofSource ((write l depth j).map some ++ rest) = j.reread.tokens ++ ofSource rest

theorem ofSource_writeItems {js : List Json} (hjs : ∀ j ∈ js, Spells l j)
    (h : Numeral.EndsNumber rest) :
    ofSource ((writeItems l depth js).map some ++ rest) =
      itemTokens (js.map reread) ++ ofSource rest := by
  induction js with
  | nil => rfl
  | cons j js ih =>
    obtain ⟨hj, hjs⟩ := List.forall_mem_cons.mp hjs
    simp only [writeItems, itemTokens, List.map_append, List.map_cons, List.append_assoc,
      List.cons_append]
    rw [ofSource_token rfl, ofSource_gap, hj _ _ (endsNumber_writeItems js h), ih hjs]

theorem ofSource_writeMembers {ms : List (String × Json)} (hms : ∀ m ∈ ms, Spells l m.2)
    (h : Numeral.EndsNumber rest) :
    ofSource ((writeMembers l depth ms).map some ++ rest) =
      memberTokens (ms.map fun m => (m.1, m.2.reread)) ++ ofSource rest := by
  induction ms with
  | nil => rfl
  | cons m ms ih =>
    obtain ⟨hm, hms⟩ := List.forall_mem_cons.mp hms
    simp only [writeMembers, memberTokens, List.map_append, List.map_cons, List.append_assoc,
      List.cons_append]
    rw [ofSource_token rfl, ofSource_gap, ofSource_stringText, ofSource_colon,
      hm _ _ (endsNumber_writeMembers ms h), ih hms]

theorem spells_of_hasFiniteNumbers {j : Json} (hj : j.HasFiniteNumbers) : Spells l j := by
  induction j using Json.induction with
  | null => exact fun _ _ _ => ofSource_token rfl
  | bool b => cases b <;> exact fun _ _ _ => ofSource_token rfl
  | number n => exact fun _ _ h => Number.ofSource_text hj h
  | string s => exact fun _ rest _ => ofSource_stringText s rest
  | array items ih =>
    have hitems := hasFiniteNumbers_array.mp hj
    intro depth rest _
    rw [reread_array]
    cases items with
    | nil => exact (ofSource_token rfl).trans (congrArg _ (ofSource_token rfl))
    | cons j js =>
      obtain ⟨ihj, ihjs⟩ := List.forall_mem_cons.mp fun i hi => ih i hi (hitems i hi)
      have hclose : Numeral.EndsNumber ((l.gap depth).map some ++ some ']' :: rest) :=
        endsNumber_gap l depth ⟨rfl, by decide⟩
      simp only [write, tokens, List.map_append, List.map_cons, List.map_nil, List.append_assoc,
        List.cons_append, List.nil_append]
      rw [ofSource_token rfl, ofSource_gap, ihj _ _ (endsNumber_writeItems js hclose),
        ofSource_writeItems ihjs hclose, ofSource_gap, ofSource_token rfl]
  | object members ih =>
    have hmembers := hasFiniteNumbers_object.mp hj
    intro depth rest _
    rw [reread_object]
    cases members with
    | nil => exact (ofSource_token rfl).trans (congrArg _ (ofSource_token rfl))
    | cons m ms =>
      obtain ⟨ihm, ihms⟩ := List.forall_mem_cons.mp fun n hn => ih n hn (hmembers n hn)
      have hclose : Numeral.EndsNumber ((l.gap depth).map some ++ some '\x7d' :: rest) :=
        endsNumber_gap l depth ⟨rfl, by decide⟩
      simp only [write, tokens, List.map_append, List.map_cons, List.map_nil, List.append_assoc,
        List.cons_append, List.nil_append]
      rw [ofSource_token rfl, ofSource_gap, ofSource_stringText, ofSource_colon,
        ihm _ _ (endsNumber_writeMembers ms hclose), ofSource_writeMembers ihms hclose,
        ofSource_gap, ofSource_token rfl]

end Token

namespace Document

/-- The first token of a tree starts an item where one is due. -/
theorem step_item_head (j : Json) :
    ∃ t ts, j.tokens = t :: ts ∧ ∀ items frames,
      step (.item items frames) t = step (.value (.list items :: frames)) t := by
  cases j with
  | null | bool | number | string =>
    exact ⟨_, [], rfl, fun items _ => by cases items <;> rfl⟩
  | array items => cases items <;> exact ⟨_, _, rfl, fun items _ => by cases items <;> rfl⟩
  | object members => cases members <;> exact ⟨_, _, rfl, fun items _ => by cases items <;> rfl⟩

/-- The tokens of the tree build its document, inside of any open containers. -/
def Builds (j : Json) : Prop :=
  ∀ frames, j.tokens.foldl step (.value frames) = fill (ofJson j) frames

theorem foldl_tokens_item {j : Json} (hj : Builds j) (items : List Document)
    (frames : List Frame) :
    j.tokens.foldl step (.item items frames) = .afterItem (ofJson j :: items) frames := by
  obtain ⟨t, ts, hts, hstep⟩ := step_item_head j
  calc j.tokens.foldl step (.item items frames)
      = ts.foldl step (step (.value (.list items :: frames)) t) := by
        rw [hts, List.foldl_cons, hstep]
    _ = j.tokens.foldl step (.value (.list items :: frames)) := by rw [hts, List.foldl_cons]
    _ = .afterItem (ofJson j :: items) frames := hj _

theorem foldl_itemTokens {js : List Json} (hjs : ∀ j ∈ js, Builds j) (items : List Document)
    (frames : List Frame) :
    (itemTokens js).foldl step (.afterItem items frames) =
      .afterItem ((js.map ofJson).reverse ++ items) frames := by
  induction js generalizing items with
  | nil => rfl
  | cons j js ih =>
    obtain ⟨hj, hjs⟩ := List.forall_mem_cons.mp hjs
    -- Items that are done stand last first in the state, so those before grow in front.
    have hcomma : step (.afterItem items frames) .comma = .item items frames := rfl
    simp only [itemTokens, List.cons_append, List.foldl_cons, List.foldl_append]
    rw [hcomma, foldl_tokens_item hj, ih hjs]
    simp

/-- A key and its value, where a key is due. -/
theorem foldl_tokens_key {j : Json} (hj : Builds j) (k : String)
    (members : List (Key × Document)) (frames : List Frame) :
    (.string (.ok k) :: .colon :: j.tokens).foldl step (.key members frames) =
      .afterMember ((.ok k, ofJson j) :: members) frames := by
  have hkey : step (.key members frames) (.string (.ok k)) = .colon members (.ok k) frames := by
    cases members <;> rfl
  have hcolon : step (.colon members (.ok k) frames) .colon =
      .value (.object members (.ok k) :: frames) := rfl
  rw [List.foldl_cons, List.foldl_cons, hkey, hcolon, hj]
  rfl

theorem foldl_memberTokens {ms : List (String × Json)} (hms : ∀ m ∈ ms, Builds m.2)
    (members : List (Key × Document)) (frames : List Frame) :
    (memberTokens ms).foldl step (.afterMember members frames) =
      .afterMember ((ms.map fun m => (.ok m.1, ofJson m.2)).reverse ++ members) frames := by
  induction ms generalizing members with
  | nil => rfl
  | cons m ms ih =>
    obtain ⟨hm, hms⟩ := List.forall_mem_cons.mp hms
    have hcomma : step (.afterMember members frames) .comma = .key members frames := rfl
    have hmember := foldl_tokens_key hm m.1 members frames
    rw [List.foldl_cons, List.foldl_cons] at hmember
    simp only [memberTokens, List.cons_append, List.foldl_cons, List.foldl_append]
    rw [hcomma, hmember, ih hms]
    simp

theorem builds (j : Json) : Builds j := by
  induction j using Json.induction with
  | null | bool | number | string => exact fun _ => rfl
  | array items ih =>
    intro frames
    cases items with
    | nil => rfl
    | cons j js =>
      obtain ⟨ihj, ihjs⟩ := List.forall_mem_cons.mp ih
      have hopen : step (.value frames) .openList = .item [] frames := rfl
      have hclose (items : List Document) : step (.afterItem items frames) .closeList =
          fill (.list items.reverse .closed) frames := rfl
      simp only [tokens, List.cons_append, List.foldl_cons, List.foldl_append, List.foldl_nil]
      rw [hopen, foldl_tokens_item ihj, foldl_itemTokens ihjs, hclose, ofJson_array]
      simp
  | object members ih =>
    intro frames
    cases members with
    | nil => rfl
    | cons m ms =>
      obtain ⟨ihm, ihms⟩ := List.forall_mem_cons.mp ih
      have hopen : step (.value frames) .openObject = .key [] frames := rfl
      have hclose (members : List (Key × Document)) :
          step (.afterMember members frames) .closeObject =
            fill (.object members.reverse .closed) frames := rfl
      have hmember := foldl_tokens_key ihm m.1 [] frames
      rw [List.foldl_cons, List.foldl_cons] at hmember
      simp only [tokens, List.cons_append, List.foldl_cons, List.foldl_append, List.foldl_nil]
      rw [hopen, hmember, foldl_memberTokens ihms, hclose, ofJson_object]
      simp

/-- What is written of a tree is its document, whatever blanks may follow it. -/
theorem ofSource_write {j : Json} (hj : j.HasFiniteNumbers) (l : Layout) {blanks : Source}
    (hends : Numeral.EndsNumber blanks) (hblanks : Token.ofSource blanks = []) :
    ofSource ((write l 0 j).map some ++ blanks) = ⟨ofJson j.reread, false⟩ := by
  rw [ofSource, Token.spells_of_hasFiniteNumbers hj 0 blanks hends, hblanks, List.append_nil,
    ofTokens, builds]
  rfl

theorem ofSource_render_reread {j : Json} (hj : j.HasFiniteNumbers) (l : Layout) :
    ofSource (.ofText (j.render l)) = ⟨ofJson j.reread, false⟩ := by
  have hsource : Source.ofText (j.render l) = (write l 0 j).map some ++ [] := by
    simp [Source.ofText, render]
  rw [hsource]
  exact ofSource_write hj l trivial (by rw [Token.ofSource])

theorem ofSource_render {j : Json} (hj : j.HasNoDoubles) (l : Layout) :
    ofSource (.ofText (j.render l)) = ⟨ofJson j, false⟩ := by
  rw [ofSource_render_reread hj.hasFiniteNumbers, reread_eq_self hj]

theorem ofSource_render_line {j : Json} (hj : j.HasFiniteNumbers) (l : Layout) :
    ofSource (.ofText (j.render l ++ "\n")) = ⟨ofJson j.reread, false⟩ := by
  have hsource : Source.ofText (j.render l ++ "\n") = (write l 0 j).map some ++ [some '\n'] := by
    simp [Source.ofText, render]
  rw [hsource]
  exact ofSource_write hj l ⟨rfl, by decide⟩ (by rw [Token.ofSource_blank rfl, Token.ofSource])

end Document

namespace Source

theorem decode_utf8Encode (before : ByteArray) (cs : List Char) :
    decode (before ++ cs.utf8Encode) before.size = cs.map some := by
  induction cs generalizing before with
  | nil => simp [decode]
  | cons c cs ih =>
    have hrest : before ++ (c :: cs).utf8Encode = before ++ [c].utf8Encode ++ cs.utf8Encode := by
      rw [List.utf8Encode_cons, ByteArray.append_assoc]
    have hnext : before.size + c.utf8Size = (before ++ [c].utf8Encode).size := by
      simp [List.utf8Encode_singleton]
    have hsize : before.size < (before ++ (c :: cs).utf8Encode).size := by
      have := c.utf8Size_pos
      rw [hrest, ByteArray.size_append, ← hnext]
      omega
    have hchar : (before ++ (c :: cs).utf8Encode).utf8DecodeChar? before.size = some c := by
      rw [ByteArray.utf8DecodeChar?_eq_utf8DecodeChar?_extract,
        ByteArray.extract_append_eq_right rfl ByteArray.size_append,
        List.utf8DecodeChar?_utf8Encode_cons]
    rw [decode, dif_pos hsize]
    simp only [hchar]
    rw [hnext, hrest, ih, List.map_cons]

/-- A file with a text in it is read as the text. -/
theorem ofBytes_toUTF8 (s : String) : ofBytes s.toUTF8 = ofText s := by
  have h := decode_utf8Encode .empty s.toList
  rwa [String.utf8Encode_toList, ByteArray.empty_append, ByteArray.size_empty] at h

end Source

end ModelRegistry.Json
