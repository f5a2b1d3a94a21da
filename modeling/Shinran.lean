import Shinran.Render.RenderCorrect
import Shinran.Render.Termination
import Shinran.Render.Unescaping
import Shinran.Render.Injection
import Shinran.Render.UnusedGlobal
import Shinran.Render.FirstLetter
import Shinran.Render.Extensions
import Shinran.Render.Calls
import Shinran.Render.Denotation
import Shinran.Render.ExtensionPanics
import Shinran.Render.Rewriting
import Shinran.Config.ErrorReports
import Shinran.Config.ActiveProfile
import Shinran.Config.YamlMatch
import Shinran.Backend.ProfileCache
import Shinran.Backend.CacheCorrect
import Shinran.Backend.CacheHit
import Shinran.Backend.CachedBackend
import Shinran.Backend.Lifetime
import Shinran.Backend.Paths
import Shinran.Backend.Visible
import Shinran.Backend.Meaning
import Shinran.Backend.Adding
import Shinran.Backend.CacheRace
import Shinran.Backend.RegexFallback
import Shinran.Backend.CasePropagation
import Shinran.Backend.CursorHint
import Shinran.Backend.RegexVectors
import Shinran.Backend.ArgOrder
import Shinran.Ibus.Releases
import Shinran.Ibus.LookupTable
import Shinran.Ibus.TableCursor
import Shinran.Ibus.Address
import Shinran.Wayland.Activation
import Shinran.Wayland.Balance
import Shinran.Wayland.Silence
import Shinran.Wayland.Printable
import Shinran.Wayland.SeatRemoval
import Shinran.Wayland.RepeatTiming
import Shinran.Wayland.Compositor
import Shinran.Wayland.Isolation
import Shinran.Simulation
import Shinran.Frontend.Typist
import Shinran.Ibus.Typing
import Shinran.Wayland.Typing
import Shinran.Frontend.SameText
import Shinran.Frontend.Said
import Shinran.Frontend.Program
import Shinran.Frontend.ReturnKey
