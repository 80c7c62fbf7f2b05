import SupportPolygon.Cloud
import SupportPolygon.Yarp
import SupportPolygon.Polygon
import SupportPolygon.Constraints
import SupportPolygon.Loops
import SupportPolygon.HalfPlane
import SupportPolygon.Winding
import SupportPolygon.Region
import SupportPolygon.Margin
import SupportPolygon.Hull
import SupportPolygon.ConvexHull
import SupportPolygon.Pipeline
import SupportPolygon.Kinematics
import SupportPolygon.Balance
import SupportPolygon.TestsUtils
