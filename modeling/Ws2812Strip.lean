import Ws2812Strip.Desktop
import Ws2812Strip.Clear
import Ws2812Strip.TextDraw
import Ws2812Strip.Turn
import Ws2812Strip.Symmetry
import Ws2812Strip.Server
import Ws2812Strip.FakeDevice
import Ws2812Strip.PixmapHeap
import Ws2812Strip.FailedDraw
import Ws2812Strip.Flip
import Ws2812Strip.NumberArithmetic
import Ws2812Strip.Reparent
import Ws2812Strip.Panel
import Ws2812Strip.DebugRender
import Ws2812Strip.Laws
import Ws2812Strip.Rpc.Progress
import Ws2812Strip.Rpc.Router
import Ws2812Strip.Rpc.Remote
