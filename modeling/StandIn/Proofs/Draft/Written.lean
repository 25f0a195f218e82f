import StandIn.Proofs.Decoration.Signature
import StandIn.Proofs.Draft
import StandIn.Proofs.Source.Names
import StandIn.Proofs.Value.Written

/-!
What is written for a file, as far as types and names of its package go. All of it comes from the
declarations of the file.
-/

namespace StandIn

open Modules Traversal
open Source (AllWords)
open Source.Lexeme (IsWord)

namespace Product

-- The types of signatures, and those that are met on the way to the values of fields, the types of
-- the fields included.
inductive Writes (c : Config) (v : Visit) : Product → TypeExpr → Prop
  | method {p m} : p ∈ (Decoration.LayerFile.ofFile v.file).proxies → m ∈ p.methods →
    Writes c v proxies (.func m.signature)
  | constructor {p k} : p ∈ (Decoration.LayerFile.ofFile v.file).proxies → k ∈ p.constructors →
    Writes c v proxies (.func k.signature)
  | field {b field t} : b ∈ Doubles.builtOf v.file → field ∈ b.fields →
    Value.Meets (Doubles.builderSettings c v.package v.file) [] field.2 t → Writes c v builders t
  | mocked {i m} : i ∈ Doubles.mockedOf v.file → m ∈ i.methods →
    Writes c v mocks (.func m.signature)

-- The names of the package that stand in the file that is made, whatever the types are.
def subjects (v : Visit) : Product → List String
  | proxies  => (Decoration.LayerFile.ofFile v.file).proxies.flatMap fun p =>
    p.interface :: p.constructors.map Decoration.Constructor.name
  | builders => (Doubles.builtOf v.file).map Doubles.Built.name
  | mocks    => (Doubles.mockedOf v.file).map Doubles.Mocked.name

end Product

variable {f : SourceFile}

-- What a part shows has names that are words.
def Traversal.Part.Worded : Part → Prop
  | .importSpec _           => True
  | .struct d fields        => IsWord d.name.toList ∧ ∀ f ∈ fields, AllWords f.type.names
  | .interface d methods _  => IsWord d.name.toList ∧ ∀ m ∈ methods, AllWords m.signature.names
  | .funcType d signature   => IsWord d.name.toList ∧ AllWords signature.names
  | .func d                 => IsWord d.name.toList ∧ AllWords d.signature.names

theorem SourceFile.Worded.part (h : f.Worded) : ∀ p ∈ Part.ofFile f, p.Worded := by
  intro p hp
  obtain ⟨d, hd, hp⟩ := List.mem_flatMap.mp hp
  have hd := h d hd
  unfold Part.ofDecl at hp
  split at hp
  case h_1 =>
    obtain ⟨_, -, rfl⟩ := List.mem_map.mp hp
    trivial
  case h_2 =>
    obtain rfl := List.mem_singleton.mp hp
    exact hd
  case h_3 d =>
    obtain ⟨hn, hs⟩ := hd
    split at hp
    case h_4 => contradiction
    all_goals
      rename_i hsh
      obtain rfl := List.mem_singleton.mp hp
      rw [hsh] at hs
      exact ⟨hn, hs⟩

theorem Value.Locals.mem_declared {x : String × LocalType} (h : x ∈ ofFile f) : x ∈ declared f := by
  have hf (ds ls : Locals) (hx : x ∈ ds.foldl (fun ls d => declare ls d.1 d.2) ls) :
      x ∈ ls ∨ x ∈ ds := by
    induction ds generalizing ls
    case nil => exact .inl hx
    case cons d ds hi =>
      rcases hi _ hx with hx | hx
      case inr => exact .inr (List.mem_cons_of_mem _ hx)
      case inl =>
        rcases List.mem_append.mp hx with hx | hx
        case inl => exact .inl (List.mem_filter.mp hx).1
        case inr => exact .inr (List.mem_singleton.mp hx ▸ List.mem_cons_self)
  exact (hf _ [] h).resolve_left List.not_mem_nil

-- Other types that names stand for are declared.
theorem Value.Locals.exists_of_find? {name : String} {t : TypeExpr}
    (ht : (ofFile f).find? name = some (.other t)) :
    ∃ d, .type d ∈ f.decls ∧ d.name = name ∧ d.shape = .other t := by
  obtain ⟨front, back, hl, -⟩ := List.lookup_eq_some_iff.mp ht
  have hm : (name, LocalType.other t) ∈ ofFile f := by simp [hl]
  obtain ⟨d, hd, hx⟩ := List.mem_filterMap.mp (mem_declared hm)
  split at hx
  case h_2 => contradiction
  case h_1 d =>
    obtain ⟨hn, hx⟩ := Prod.mk.inj (Option.some.inj hx)
    split at hx
    case h_4 hsh =>
      obtain rfl := LocalType.other.inj hx
      exact ⟨d, hd, hn, hsh⟩
    all_goals contradiction

-- Their names are words.
theorem SourceFile.Worded.find? (h : f.Worded) {name : String} {t : TypeExpr}
    (ht : (Value.Locals.ofFile f).find? name = some (.other t)) : AllWords t.names := by
  obtain ⟨d, hd, -, hs⟩ := Value.Locals.exists_of_find? ht
  obtain ⟨-, hw⟩ := h _ hd
  rw [hs] at hw
  exact hw

namespace Decoration.LayerFile

theorem mem_interfaces {name : String} {methods : List Method}
    (h : (name, methods) ∈ (ofFile f).interfaces) :
    Name.isExported name ∧ ∃ d embeds, d.name = name ∧
      Part.interface d methods embeds ∈ Part.ofFile f := by
  obtain ⟨p, hp, h⟩ := List.mem_filterMap.mp h
  unfold interfaceOf? at h
  split at h
  case h_2 => contradiction
  case h_1 d ms embeds =>
    obtain ⟨he, h⟩ := Option.ite_none_right_eq_some.mp h
    obtain ⟨rfl, rfl⟩ := Prod.mk.inj (Option.some.inj h)
    simp only [Bool.and_eq_true] at he
    exact ⟨he.1.1, d, embeds, rfl, hp⟩

theorem worded_proxyMethod (h : f.Worded) (struct : String) {m : Method}
    (hm : AllWords m.signature.names) :
    AllWords ((ofFile f).proxyMethod struct m).signature.names := by
  rw [signature_proxyMethod]
  cases hd : (ofFile f).methodOf? struct m.name
  case none   => exact hm
  case some d => exact (h.part _ (mem_funcs.mp (methodOf?_eq_some hd).1)).2

end Decoration.LayerFile

theorem Value.Meets.worded {s : Settings} {expanding : List String} {t u : TypeExpr}
    (hs : ∀ name t, s.locals.find? name = some (.other t) → AllWords t.names)
    (h : Meets s expanding t u) (ht : AllWords t.names) : AllWords u.names := by
  induction h
  case self                         => exact ht
  case key hi                       => exact hi (Source.allWords_append.mp ht).1
  case value hi                     => exact hi (Source.allWords_append.mp ht).2
  case expansion find _ _ hi        => exact hi (hs _ _ find)
  case pointer hi | slice hi | array hi | chan hi => exact hi ht

namespace Doubles

theorem mem_builtOf {b : Built} (h : b ∈ builtOf f) : Name.isExported b.name ∧
    ∃ d fields, d.name = b.name ∧ b.fields = Field.exported fields ∧
      Part.struct d fields ∈ Part.ofFile f := by
  obtain ⟨p, hp, h⟩ := List.mem_filterMap.mp h
  unfold builtOf? at h
  split at h
  case h_2 => contradiction
  case h_1 d fields =>
    obtain ⟨he, h⟩ := Option.ite_none_right_eq_some.mp h
    obtain rfl := Option.some.inj h
    exact ⟨(Bool.and_eq_true_iff.mp he).1, d, fields, rfl, rfl, hp⟩

theorem mem_mockedOf {i : Mocked} (h : i ∈ mockedOf f) : Name.isExported i.name ∧
    ∃ d embeds, d.name = i.name ∧ Part.interface d i.methods embeds ∈ Part.ofFile f := by
  obtain ⟨p, hp, h⟩ := List.mem_filterMap.mp h
  unfold mockedOf? at h
  split at h
  case h_2 => contradiction
  case h_1 d methods embeds =>
    obtain ⟨he, h⟩ := Option.ite_none_right_eq_some.mp h
    obtain rfl := Option.some.inj h
    simp only [Bool.and_eq_true] at he
    exact ⟨he.1.1.1, d, embeds, rfl, hp⟩

theorem worded_field (h : f.Worded) {b : Built} (hb : b ∈ builtOf f) {field : String × TypeExpr}
    (hf : field ∈ b.fields) : AllWords field.2.names := by
  obtain ⟨-, d, fields, -, he, hp⟩ := mem_builtOf hb
  obtain ⟨g, hg, hf⟩ := List.mem_filterMap.mp (he ▸ hf)
  obtain ⟨name, -, hf⟩ := Option.bind_eq_some_iff.mp hf
  obtain ⟨-, hf⟩ := Option.ite_none_right_eq_some.mp hf
  obtain rfl := Option.some.inj hf
  exact (h.part _ hp).2 g hg

end Doubles

namespace Decoration

theorem constructors_of_mem_proxies {p : Proxy} (h : p ∈ (LayerFile.ofFile f).proxies)
    {k : Constructor} (hk : k ∈ p.constructors) :
    Name.isExported k.name ∧ ∃ d, d.name = k.name ∧ d.signature = k.signature ∧
      Part.func d ∈ Part.ofFile f := by
  rw [LayerFile.constructors_of_mem_proxiesWithout h] at hk
  obtain ⟨d, hd, hk⟩ := List.mem_filterMap.mp hk
  obtain ⟨he, hk⟩ := Option.ite_none_right_eq_some.mp hk
  obtain rfl := Option.some.inj hk
  simp only [Bool.and_eq_true] at he
  exact ⟨he.1.2, d, rfl, rfl, LayerFile.mem_funcs.mp hd⟩

theorem worded_method (h : f.Worded) {p : Proxy} (hp : p ∈ (LayerFile.ofFile f).proxies)
    {m : ProxyMethod} (hm : m ∈ p.methods) : AllWords m.signature.names := by
  obtain ⟨_, methods, hs⟩ := LayerFile.of_mem_proxies hp
  rw [hs.methods] at hm
  obtain ⟨k, hk, rfl⟩ := List.mem_map.mp hm
  obtain ⟨-, d, _, -, hd⟩ := LayerFile.mem_interfaces hs.interface
  exact LayerFile.worded_proxyMethod h p.struct ((h.part _ hd).2 k hk)

end Decoration

namespace Product

variable {c : Config} {v : Visit} {product : Product}

-- Whatever is written has names that are words.
theorem Writes.worded {t : TypeExpr} (hw : v.file.Worded) (h : product.Writes c v t) :
    AllWords t.names := by
  cases h
  case method hp hm => exact Decoration.worded_method hw hp hm
  case constructor hp hk =>
    obtain ⟨-, d, -, hs, hd⟩ := Decoration.constructors_of_mem_proxies hp hk
    exact hs ▸ (hw.part _ hd).2
  case field hb hf hm => exact hm.worded (fun _ _ => hw.find?) (Doubles.worded_field hw hb hf)
  case mocked m hi hm =>
    obtain ⟨-, d, _, -, hd⟩ := Doubles.mem_mockedOf hi
    exact (hw.part _ hd).2 m hm

-- The package has what a file says of its own accord, under exported names.
theorem subjects_exported : ∀ n ∈ product.subjects v, Name.isExported n := by
  intro n hn
  cases product
  case proxies =>
    obtain ⟨p, hp, hn⟩ := List.mem_flatMap.mp hn
    rcases List.mem_cons.mp hn with rfl | hn
    case inl =>
      obtain ⟨_, _, hs⟩ := Decoration.LayerFile.of_mem_proxies hp
      exact (Decoration.LayerFile.mem_interfaces hs.interface).1
    case inr =>
      obtain ⟨k, hk, rfl⟩ := List.mem_map.mp hn
      exact (Decoration.constructors_of_mem_proxies hp hk).1
  case builders =>
    obtain ⟨b, hb, rfl⟩ := List.mem_map.mp hn
    exact (Doubles.mem_builtOf hb).1
  case mocks =>
    obtain ⟨i, hi, rfl⟩ := List.mem_map.mp hn
    exact (Doubles.mem_mockedOf hi).1

theorem subjects_worded (hw : v.file.Worded) : ∀ n ∈ product.subjects v, IsWord n.toList := by
  intro n hn
  cases product
  case proxies =>
    obtain ⟨p, hp, hn⟩ := List.mem_flatMap.mp hn
    rcases List.mem_cons.mp hn with rfl | hn
    case inl =>
      obtain ⟨_, _, hs⟩ := Decoration.LayerFile.of_mem_proxies hp
      obtain ⟨-, d, _, he, hd⟩ := Decoration.LayerFile.mem_interfaces hs.interface
      exact he ▸ (hw.part _ hd).1
    case inr =>
      obtain ⟨k, hk, rfl⟩ := List.mem_map.mp hn
      obtain ⟨-, d, he, -, hd⟩ := Decoration.constructors_of_mem_proxies hp hk
      exact he ▸ (hw.part _ hd).1
  case builders =>
    obtain ⟨b, hb, rfl⟩ := List.mem_map.mp hn
    obtain ⟨-, d, _, he, -, hd⟩ := Doubles.mem_builtOf hb
    exact he ▸ (hw.part _ hd).1
  case mocks =>
    obtain ⟨i, hi, rfl⟩ := List.mem_map.mp hn
    obtain ⟨-, d, _, he, hd⟩ := Doubles.mem_mockedOf hi
    exact he ▸ (hw.part _ hd).1

end Product

end StandIn
