import Skibios.Allocator.Pools

/-! Every loop of the heap ends, as long as no split leaves a cycle in the list. -/

namespace Skibios.Allocator.Termination

open Library.Words Library.Loops Library.Runs Markers Paths Walks Outcomes Pools

variable {R : Region} {h : Heap} {c : Pool} {es : List Request} {words : ℤ → Marker} {a k n : ℕ}
  {z : ℤ}

theorem heap_operations_return
    (hr : Run (fun c e d => SafelySplit R c e ∧ Serve R c e d) ⟨heapInit R words, []⟩ es c) :
    (∀ size, Returns fun fuel => heapAllocate R fuel c.heap size) ∧
      ∀ address, Returns fun fuel => svcServiceGheapRelease R fuel c.heap address := by
  obtain ⟨L, hp⟩ : ∃ L, Path R c.heap L := by
    refine hr.invariant (I := fun c => ∃ L, Path R c.heap L) ?_ ⟨_, initial_path R words⟩
    exact fun c e d hp hd => serve_path hd.2 hd.1 hp
  constructor
  · intro size
    unfold heapAllocate
    split_ifs
    · exact Returns.pure _
    · exact Returns.pure _
    · exact (find_returns hp).map _
  · intro address
    unfold svcServiceGheapRelease
    split_ifs with hb
    · exact Returns.pure _
    · exact (release_returns hp hb).map _

section Instances

theorem heap_operations_return_split : ∃ c,
    Run (fun c e d => SafelySplit kilobyte c e ∧ Serve kilobyte c e d) fresh splitting c ∧
      (∀ size, Returns fun fuel => heapAllocate kilobyte fuel c.heap size) ∧
      ∀ address, Returns fun fuel => svcServiceGheapRelease kilobyte fuel c.heap address := by
  have hsome : (exec (guarded apart kilobyte 300) fresh splitting).isSome = true := by decide +kernel
  obtain ⟨c, hc⟩ := Option.isSome_iff_exists.mp hsome
  have hr := exec_run (guarded_sound (apart_safe kilobyte)) hc
  exact ⟨c, hr, heap_operations_return hr⟩

lemma pred_stuck {x y : ℤ} (hx : h.next x = y) (hy : h.next y = y) (hxz : x ≠ z) (hyz : y ≠ z)
    (k : ℕ) : runLoop (predTurn h z) k (x, z) = none := by
  apply runLoop_stuck (I := fun s => s.1 = x ∨ s.1 = y) _ k (Or.inl rfl)
  rintro ⟨r4, r2⟩ (rfl | rfl)
  · exact ⟨_, if_neg hxz, Or.inr hx⟩
  · exact ⟨_, if_neg hyz, Or.inr hy⟩

lemma release_stuck {m : ℕ} (hf : runLoop (findTurn h a) m (.first R h) = some (some z))
    (hne : (joinNext (freeMarker h z) z).heap.fsllStart ≠ z)
    (hs : ∀ k, runLoop (predTurn (joinNext (freeMarker h z) z).heap z) k
      ((joinNext (freeMarker h z) z).heap.fsllStart, z) = none) (k : ℕ) :
    releaseAllocatedMarker R k h a = none := by
  unfold releaseAllocatedMarker
  cases hk : runLoop (findTurn h a) k (.first R h) with
  | none => rfl
  | some r =>
    obtain rfl := runLoop_unique hk hf
    rw [Option.bind_some]
    dsimp only
    rw [if_neg hne, hs, Option.map_none]

def tangled : Pool := (exec (serve kilobyte 300) fresh (tangling ++ [.release 0x20001004])).getD fresh

lemma run_tangled : Run (Serve kilobyte) fresh (tangling ++ [.release 0x20001004]) tangled := by
  have hsome : (exec (serve kilobyte 300) fresh (tangling ++ [.release 0x20001004])).isSome = true := by
    decide +kernel
  obtain ⟨c, hc⟩ := Option.isSome_iff_exists.mp hsome
  have he : tangled = c := by rw [tangled, hc, Option.getD_some]
  exact he ▸ exec_run serve_sound hc

/-- The search for the predecessor goes from the first marker to a cleared word and stays there. -/
theorem release_hangs : ∃ es c p n, Run (Serve kilobyte) fresh es c ∧ (p, n) ∈ c.live ∧
    ∀ fuel, svcServiceGheapRelease kilobyte fuel c.heap p = none := by
  have hlive : (0x2000102C, 60) ∈ tangled.live := by decide +kernel
  have hb : tangled.heap.blistSize ≠ 0 := by decide +kernel
  have hf : runLoop (findTurn tangled.heap 0x2000102C) 10 (.first kilobyte tangled.heap) =
      some (some (-1)) := by decide +kernel
  have hstart : (joinNext (freeMarker tangled.heap (-1)) (-1)).heap.fsllStart = 255 := by
    decide +kernel
  have hfirst : (joinNext (freeMarker tangled.heap (-1)) (-1)).heap.next 255 = 254 := by
    decide +kernel
  have hself : (joinNext (freeMarker tangled.heap (-1)) (-1)).heap.next 254 = 254 := by
    decide +kernel
  refine ⟨_, tangled, 0x2000102C, 60, run_tangled, hlive, fun fuel => ?_⟩
  have hstuck := pred_stuck (z := -1) hfirst hself (by decide) (by decide)
  rw [← hstart] at hstuck
  unfold svcServiceGheapRelease
  rw [if_neg hb, release_stuck hf (by rw [hstart]; decide) hstuck, Option.map_none]

end Instances

end Skibios.Allocator.Termination
