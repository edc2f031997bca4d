import StreamAuth.Config.Settings

/-!
# What layers of settings come to

Settings are merged one by one: what a layer makes of one of them does not depend on the others (`get_merge`). So what holds of a
single value with a layer put on it holds of all settings together (`eq_of_get`), and the laws of merging are those of `overlay`.
Of many layers, the last one that departs from the default settles a setting (`foldl_overlay`).
-/

namespace StreamAuth

/-! ## One setting at a time -/

/-- The settings by name. -/
inductive Setting where
  | host
  | port
  | service
  | username
  | password
  | connectTimeout
  | readTimeout
  | readBufferSize

/-- What the value of a setting is. -/
abbrev Setting.Value : Setting → Type
  | host | service | username | password => String
  | port => UInt16
  | connectTimeout | readTimeout | readBufferSize => UInt64

instance : (s : Setting) → DecidableEq s.Value
  | .host | .service | .username | .password => inferInstanceAs (DecidableEq String)
  | .port => inferInstanceAs (DecidableEq UInt16)
  | .connectTimeout | .readTimeout | .readBufferSize => inferInstanceAs (DecidableEq UInt64)

namespace Config

/-- The value of a setting. -/
def get (c : Config) : (s : Setting) → s.Value
  | .host => c.server.host
  | .port => c.server.port
  | .service => c.server.service
  | .username => c.login.username
  | .password => c.login.password
  | .connectTimeout => c.session.connectTimeout
  | .readTimeout => c.session.readTimeout
  | .readBufferSize => c.session.readBufferSize

/-- There is no more to settings than the value of each. -/
theorem eq_of_get {a b : Config} (h : ∀ s, a.get s = b.get s) : a = b := by
  obtain ⟨⟨_, _, _⟩, ⟨_, _⟩, ⟨_, _, _⟩⟩ := a
  obtain ⟨⟨_, _, _⟩, ⟨_, _⟩, ⟨_, _, _⟩⟩ := b
  simp only [Config.mk.injEq, ServerSettings.mk.injEq, LoginSettings.mk.injEq, SessionSettings.mk.injEq]
  exact ⟨⟨h .host, h .port, h .service⟩, ⟨h .username, h .password⟩, h .connectTimeout, h .readTimeout, h .readBufferSize⟩

/-- Each setting of a layer is put on that of the base, against its own default. -/
theorem get_merge (base layer : Config) (s : Setting) :
    (base.merge layer).get s = overlay (default.get s) (base.get s) (layer.get s) := by
  cases s <;> rfl

/-! ## Putting a layer on a value -/

section

variable {α : Type} [DecidableEq α] (unset : α)

theorem overlay_unset (base : α) : overlay unset base unset = base :=
  if_pos rfl

theorem overlay_of_ne {layer : α} (h : layer ≠ unset) (base : α) : overlay unset base layer = layer :=
  if_neg h

theorem unset_overlay (layer : α) : overlay unset unset layer = layer := by
  by_cases h : layer = unset
  · rw [h, overlay_unset]
  · exact overlay_of_ne unset h unset

theorem overlay_self (value : α) : overlay unset value value = value := by
  by_cases h : value = unset
  · rw [h, overlay_unset]
  · exact overlay_of_ne unset h value

theorem overlay_assoc (a b c : α) : overlay unset (overlay unset a b) c = overlay unset a (overlay unset b c) := by
  by_cases hc : c = unset
  · rw [hc, overlay_unset, overlay_unset]
  · rw [overlay_of_ne unset hc, overlay_of_ne unset hc, overlay_of_ne unset hc]

/-- Of many layers, the last one that departs from the default counts. -/
theorem foldl_overlay (base : α) (layers : List α) :
    layers.foldl (overlay unset) base = ((layers.filter (· ≠ unset)).getLast?).getD base := by
  induction layers generalizing base with
  | nil => rfl
  | cons layer layers ih =>
    rw [List.foldl_cons, ih]
    by_cases h : layer = unset
    · rw [List.filter_cons_of_neg (by simpa using h), h, overlay_unset]
    · rw [List.filter_cons_of_pos (by simpa using h), overlay_of_ne unset h, List.getLast?_cons, Option.getD_some]

end

/-! ## Putting a layer on settings -/

theorem merge_default (c : Config) : c.merge default = c :=
  eq_of_get fun s => by rw [get_merge, overlay_unset]

theorem default_merge (c : Config) : default.merge c = c :=
  eq_of_get fun s => by rw [get_merge, unset_overlay]

theorem merge_self (c : Config) : c.merge c = c :=
  eq_of_get fun s => by rw [get_merge, overlay_self]

theorem merge_assoc (a b c : Config) : (a.merge b).merge c = a.merge (b.merge c) :=
  eq_of_get fun s => by simp only [get_merge, overlay_assoc]

/-- Layers are put on each setting apart from the others. -/
theorem get_foldl_merge (base : Config) (layers : List Config) (s : Setting) :
    (layers.foldl merge base).get s = (layers.map (·.get s)).foldl (overlay (default.get s)) (base.get s) := by
  induction layers generalizing base with
  | nil => rfl
  | cons layer layers ih => rw [List.foldl_cons, ih, get_merge, List.map_cons, List.foldl_cons]

/-- What merging does to settings, in three parts:
1. The defaults, as the base or as the layer, leave settings as they are, and so does a layer of the same settings.
2. It does not matter in which order three of them are put together.
3. When layers are put on the defaults one after another, each of the eight settings is as in the last layer in which it is not
   its default, whatever the other settings are. If there is none, it is the default. -/
theorem merge_of_layers (a b c : Config) :
    (a.merge default = a ∧ default.merge a = a ∧ a.merge a = a) ∧ (a.merge b).merge c = a.merge (b.merge c) ∧
      ∀ (layers : List Config) (s : Setting), (layers.foldl merge default).get s =
        ((layers.filter fun layer => layer.get s ≠ default.get s).getLast?.map (·.get s)).getD (default.get s) := by
  refine ⟨⟨merge_default a, default_merge a, merge_self a⟩, merge_assoc a b c, fun layers s => ?_⟩
  calc (layers.foldl merge default).get s
      = (((layers.map (·.get s)).filter (· ≠ default.get s)).getLast?).getD (default.get s) := by
        rw [get_foldl_merge, foldl_overlay]
    _ = ((layers.filter fun layer => layer.get s ≠ default.get s).getLast?.map (·.get s)).getD (default.get s) := by
        rw [List.filter_map, List.getLast?_map]
        rfl

end Config

end StreamAuth
