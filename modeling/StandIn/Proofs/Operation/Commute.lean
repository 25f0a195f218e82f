import StandIn.Proofs.Operation.Works

/-!
Running two operations in either order.
-/

namespace StandIn

open Files Modules Traversal Emission Workspace

variable {here place place' q : Place} {root : Path} {out out' d d' : String} {xs ys : List String}
variable {works works' : List (Path × String)} {u v : Option ByteArray}

theorem Files.prefix_of_ne (hd : d ≠ d') (h : q <+: place ++ d :: xs) (h' : q <+: place ++ d' :: ys) :
    q <+: place := by
  rcases List.prefix_or_prefix_of_prefix h (List.prefix_append place (d :: xs)) with hp | ⟨r, rfl⟩
  case inl => exact hp
  case inr =>
    rw [List.prefix_append_right_inj] at h h'
    match r with
    | []     => simp
    | e :: r =>
      rw [List.cons_prefix_cons] at h h'
      exact absurd (h.1.symm.trans h'.1) hd

-- What leads into different directories has only the way to them in common.
theorem Files.trace_eq_of_ne (hd : out ≠ out') (hw : ∀ w ∈ works, Path.Into root out w.1)
    (hw' : ∀ w ∈ works', Path.Into root out' w.1) (h : trace here works q = some u)
    (h' : trace here works' q = some v) : u = v := by
  have dir {out : String} {works : List (Path × String)} {u : Option ByteArray}
      (hw : ∀ w ∈ works, Path.Into root out w.1) (h : trace here works q = some u) :
      ∃ names, q <+: goal here root ++ out :: names ∧ (q <+: goal here root → u = none) := by
    have ⟨w, hm, hu⟩ := exists_of_trace h
    have ⟨names, name, hg⟩ := (hw w hm).goal here
    rw [List.append_assoc, List.cons_append] at hg
    refine ⟨names ++ [name], ?_⟩
    rcases mark_eq_some hu with ⟨hq, _⟩ | ⟨hq, hu⟩
    case inr => exact ⟨hg ▸ hq, fun _ => hu⟩
    case inl =>
      refine ⟨hg ▸ hq ▸ List.prefix_refl q, fun hp => ?_⟩
      rw [hq, hg] at hp
      simpa using hp.length_le
  have ⟨_, hq, hu⟩ := dir hw h
  have ⟨_, hq', hv⟩ := dir hw' h'
  have hp := prefix_of_ne hd hq hq'
  rw [hu hp, hv hp]

-- Adding in either order comes to the same when what is added does not differ.
theorem or_or_comm_iff {α : Type} {a b x : Option α} :
    b.or (a.or x) = a.or (b.or x) ↔ ∀ u v, a = some u → b = some v → u = v := by
  cases a <;> cases b <;> simp [eq_comm]

variable {x y₁ y₂ y₃ y₄ : Workspace} {i : Unit}

theorem Files.storeAll_comm_iff_trace (hr : x.Rooted root) (ho : x.tree.ordered)
    (hw : ∀ w ∈ works, Path.Into root out w.1) (hw' : ∀ w ∈ works', Path.Into root out' w.1)
    (h₁ : (storeAll works).run x = (.ok i, y₁)) (h₂ : (storeAll works').run y₁ = (.ok i, y₂))
    (h₃ : (storeAll works').run x = (.ok i, y₃)) (h₄ : (storeAll works).run y₃ = (.ok i, y₄)) :
    y₂ = y₄ ↔
      ∀ q u v, trace x.here works q = some u → trace x.here works' q = some v → u = v := by
  have kept {out : String} {works : List (Path × String)} {x y : Workspace} (hr : x.Rooted root)
      (hw : ∀ w ∈ works, Path.Into root out w.1) (h : (storeAll works).run x = (.ok i, y)) :
      Confined (goal x.here root ++ [out]) (fun _ => True) x y :=
    storeAll_confined hr (fun w hm => ⟨hw w hm, trivial⟩) h
  have hc₁ := kept hr hw h₁
  have hc₂ := kept (hc₁.rooted hr) hw' h₂
  have hc₃ := kept hr hw' h₃
  have hc₄ := kept (hc₃.rooted hr) hw h₄
  have hs₂ q : y₂.tree.sight q =
      (trace x.here works' q).or ((trace x.here works q).or (x.tree.sight q)) := by
    rw [(storeAll_sight (hc₁.rooted hr) hw' h₂).2, (storeAll_sight hr hw h₁).2, hc₁.here]
  have hs₄ q : y₄.tree.sight q =
      (trace x.here works q).or ((trace x.here works' q).or (x.tree.sight q)) := by
    rw [(storeAll_sight (hc₃.rooted hr) hw h₄).2, (storeAll_sight hr hw' h₃).2, hc₃.here]
  constructor
  case mp =>
    rintro rfl q
    exact or_or_comm_iff.mp ((hs₂ q).symm.trans (hs₄ q))
  case mpr =>
    intro h
    refine eq_of_sight (hc₂.ordered (hc₁.ordered ho)) (hc₄.ordered (hc₃.ordered ho)) ?_ fun q => ?_
    · rw [hc₂.here, hc₁.here, hc₄.here, hc₃.here]
    · rw [hs₂, hs₄, or_or_comm_iff.mpr (h q)]

-- What has been stored as a directory stays one.
theorem Files.eq_none_of_trace (hr : x.Rooted root) (hw : ∀ w ∈ works, Path.Into root out w.1)
    (hw' : ∀ w ∈ works', Path.Into root out' w.1) (h₁ : (storeAll works).run x = (.ok i, y₁))
    (h₂ : (storeAll works').run y₁ = (.ok i, y₂)) (hu : trace x.here works q = some none)
    (hv : trace x.here works' q = some v) : v = none := by
  have hc₁ : Confined (goal x.here root ++ [out]) (fun _ => True) x y₁ :=
    storeAll_confined hr (fun w hm => ⟨hw w hm, trivial⟩) h₁
  have hc₂ : Confined (goal y₁.here root ++ [out']) (fun _ => True) y₁ y₂ :=
    storeAll_confined (hc₁.rooted hr) (fun w hm => ⟨hw' w hm, trivial⟩) h₂
  have hd : y₁.tree.isDirAt q := by
    rw [Node.isDirAt_iff_sight, (storeAll_sight hr hw h₁).2, hu]
    rfl
  have hd := Node.isDirAt_iff_sight.mp (hc₂.dirs q hd)
  rw [(storeAll_sight (hc₁.rooted hr) hw' h₂).2, hc₁.here, hv] at hd
  exact Option.some.inj hd

theorem Files.trace_eq_iff_read (hr : x.Rooted root)
    (hw : ∀ w ∈ works, Path.Into root out w.1) (hw' : ∀ w ∈ works', Path.Into root out' w.1)
    (h₁ : (storeAll works).run x = (.ok i, y₁)) (h₂ : (storeAll works').run y₁ = (.ok i, y₂))
    (h₃ : (storeAll works').run x = (.ok i, y₃)) (h₄ : (storeAll works).run y₃ = (.ok i, y₄)) :
    (∀ q u v, trace x.here works q = some u → trace x.here works' q = some v → u = v) ↔
      ∀ w ∈ works, ∀ w' ∈ works', goal x.here w.1 = goal x.here w'.1 →
        y₁.read w.1 = y₃.read w'.1 := by
  constructor
  case mp =>
    intro h w hm w' hm' he
    have ⟨text, ht, hr₁⟩ := read_of_storeAll hr hw h₁ hm
    have ⟨text', ht', hr₃⟩ := read_of_storeAll hr hw' h₃ hm'
    have hb := Option.some.inj (h _ _ _ ht (he ▸ ht'))
    rw [hr₁, hr₃, String.toByteArray_inj.mp hb]
  case mpr =>
    intro h q u v hu hv
    match u, v with
    | none, _          => exact (eq_none_of_trace hr hw hw' h₁ h₂ hu hv).symm
    | some _, none     => exact eq_none_of_trace hr hw' hw h₃ h₄ hv hu
    | some _, some _ =>
      have ⟨w, hm, hq, _⟩ := exists_of_trace_file hu
      have ⟨w', hm', hq', _⟩ := exists_of_trace_file hv
      have ⟨text, ht, hr₁⟩ := read_of_storeAll hr hw h₁ hm
      have ⟨text', ht', hr₃⟩ := read_of_storeAll hr hw' h₃ hm'
      have hread := h w hm w' hm' (hq ▸ hq')
      rw [hr₁, hr₃, Except.ok.injEq] at hread
      rw [← hq] at ht
      rw [← hq', ← hread] at ht'
      exact (Option.some.inj (hu.symm.trans ht)).trans (Option.some.inj (hv.symm.trans ht')).symm

namespace Operation

variable {o o' : Operation} {c : Config} {w w₁ w₂ w₃ w₄ : Workspace} {s s' t t' : Summary}

-- Two operations that succeed in either order come to the same summaries. They leave the same
-- files just when they do not write different texts to one place, so always when they write to
-- different directories.
theorem run_comm (hs : w.tree.sound) (ho : w.tree.ordered)
    (h₁ : o.run c root w = (.ok s, w₁)) (h₂ : o'.run c root w₁ = (.ok t', w₂))
    (h₃ : o'.run c root w = (.ok t, w₃)) (h₄ : o.run c root w₃ = (.ok s', w₄)) :
    s' = s ∧ t' = t ∧ (o.output c ≠ o'.output c → w₂ = w₄) ∧
      (w₂ = w₄ ↔ ∀ p ∈ s.written, ∀ p' ∈ t.written, goal w.here p = goal w.here p' →
        w₁.read p = w₃.read p') := by
  rcases run_cases h₁ with ⟨⟨f, hf⟩, -⟩ | ⟨module, ls, hr⟩
  case inl => simp at hf
  have ⟨a, ha, hwa, hsa⟩ := exists_script o c root module ls
  have ⟨b, hb, hwb, hsb⟩ := exists_script o' c root module ls
  rw [ha w hr, Script.perform_eq_ok] at h₁
  rw [hb w hr, Script.perform_eq_ok] at h₃
  have hc₁ := hr.storeAll_confined hs hwa h₁.2
  have hc₃ := hr.storeAll_confined hs hwb h₃.2
  have hr₁ := hr.confined hs ho hc₁
  have hr₃ := hr.confined hs ho hc₃
  rw [hb w₁ hr₁, Script.perform_eq_ok] at h₂
  rw [ha w₃ hr₃, Script.perform_eq_ok] at h₄
  have hi := hr.works_into hs hwa
  have hi' := hr.works_into hs hwb
  have hcomm := storeAll_comm_iff_trace hr.rooted ho hi hi' h₁.2 h₂.2 h₃.2 h₄.2
  refine ⟨Except.ok.inj (h₄.1.symm.trans h₁.1), Except.ok.inj (h₂.1.symm.trans h₃.1), fun hd => ?_,
    ?_⟩
  · exact hcomm.mpr fun q u v hu hv => trace_eq_of_ne hd hi hi' hu hv
  · rw [hcomm, trace_eq_iff_read hr.rooted hi hi' h₁.2 h₂.2 h₃.2 h₄.2]
    have hsa := hsa s h₁.1
    have hsb := hsb t h₃.1
    simp only [hsa, hsb, List.forall_mem_map]

theorem run_comm_lonely :
    ∃ s t w₁ w₂ w₃ w₄, lonely.tree.sound ∧ lonely.tree.ordered ∧
      decorate.run {} "." lonely = (.ok s, w₁) ∧ generate.run {} "." w₁ = (.ok t, w₂) ∧
      generate.run {} "." lonely = (.ok t, w₃) ∧ decorate.run {} "." w₃ = (.ok s, w₄) ∧
      w₂ = w₄ := by
  have h₂ : (generate.run {} "." (decorate.run {} "." lonely).2).1.toOption.any fun _ => true := by
    decide +kernel
  have h₃ : (generate.run {} "." lonely).1.toOption.any fun _ => true := by
    decide +kernel
  have h₄ : (decorate.run {} "." (generate.run {} "." lonely).2).1.toOption.any fun _ => true := by
    decide +kernel
  obtain ⟨s, w₁, h₁, _⟩ := lonely_run
  rw [h₁] at h₂
  obtain ⟨t', w₂, h₂, _⟩ := Effect.exists_of_any h₂
  obtain ⟨t, w₃, h₃, _⟩ := Effect.exists_of_any h₃
  rw [h₃] at h₄
  obtain ⟨s', w₄, h₄, _⟩ := Effect.exists_of_any h₄
  have hd : decorate.output {} ≠ generate.output {} := by decide
  have ⟨hs, ho⟩ := lonely_sound
  obtain ⟨rfl, rfl, he, _⟩ := run_comm hs ho h₁ h₂ h₃ h₄
  exact ⟨s', t', w₁, w₂, w₃, w₄, hs, ho, h₁, h₂, h₃, h₄, he hd⟩

end Operation

end StandIn
